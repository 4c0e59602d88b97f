import Mathlib.Data.List.Find
import Mathlib.Tactic.Abel
import Rtl8189.HashBuckets
import Rtl8189.ApXmit

/-!
# Bookkeeping of the transmit queues

Each queue has a counter, each category has one, and a station is linked into
the list of a category as long as it has frames there. `stop_sta_xmit` hands the
frames of a station over to its sleep queue, which refuses them if the station
is no longer associated, and unlinks the station all the same.
-/
namespace Rtl8189.XmitQueue

open ApXmit EventRun

/-- `total` is what `accnt` counts. -/
def total (s : XmitPriv) (ac : Ac) : ℤ :=
  ∑ k ∈ s.staHash.toFinset, ((s.servq k ac).staPending.length : ℤ)

structure Booked (s : XmitPriv) : Prop where
  hash_nodup : s.staHash.Nodup
  free_nodup : s.freeStaQueue.Nodup
  free_not_mem : ∀ k ∈ s.freeStaQueue, k ∉ s.staHash
  owned : ∀ k ac, ∀ f ∈ (s.servq k ac).staPending,
    acOf f.priority = ac ∧ f.psta = some k ∧ rtwGetStainfo s f.ra = some k
  qcnt : ∀ k ac, (s.servq k ac).qcnt = (s.servq k ac).staPending.length
  accnt : ∀ ac, s.accnt ac = total s ac
  link_nodup : ∀ ac, (s.staQueue ac).Nodup
  link : ∀ k ac, k ∈ s.staQueue ac ↔ (s.servq k ac).staPending ≠ []

theorem Booked.empty {s : XmitPriv} (hs : Booked s) {k : ℕ} (hk : k ∉ s.staHash) (ac : Ac) :
    (s.servq k ac).staPending = [] := by
  apply List.eq_nil_iff_forall_not_mem.mpr
  intro f hf
  exact hk (rtwGetStainfo_mem (hs.owned k ac f hf).2.2)

/-! ## A change of one queue -/

/-- Only the queue of one station and category changes, and `accnt` by `d`. -/
structure OneQueue (s t : XmitPriv) (k : ℕ) (ac : Ac) (d : ℤ) : Prop where
  table : SameTable s t
  servq : ∀ j ac', j ≠ k ∨ ac' ≠ ac → t.servq j ac' = s.servq j ac'
  staQueue : ∀ ac', ac' ≠ ac → t.staQueue ac' = s.staQueue ac'
  accnt : ∀ ac', t.accnt ac' = s.accnt ac' + if ac' = ac then d else 0

theorem OneQueue.total {s t : XmitPriv} {k : ℕ} {ac : Ac} {d : ℤ} (h : OneQueue s t k ac d)
    (hk : k ∈ s.staHash)
    (hd : ((t.servq k ac).staPending.length : ℤ) = (s.servq k ac).staPending.length + d)
    (ac' : Ac) : total t ac' = total s ac' + if ac' = ac then d else 0 := by
  simp only [XmitQueue.total, h.table.staHash]
  have hmem : k ∈ s.staHash.toFinset := List.mem_toFinset.mpr hk
  rw [← Finset.add_sum_erase _ _ hmem, ← Finset.add_sum_erase _ _ hmem]
  have hrest : ∑ j ∈ s.staHash.toFinset.erase k, ((t.servq j ac').staPending.length : ℤ) =
      ∑ j ∈ s.staHash.toFinset.erase k, ((s.servq j ac').staPending.length : ℤ) := by
    apply Finset.sum_congr rfl
    intro j hj
    rw [h.servq j ac' (Or.inl (Finset.ne_of_mem_erase hj))]
  rw [hrest]
  split_ifs with hac
  · subst hac
    rw [hd]
    abel
  · rw [h.servq k ac' (Or.inr hac), add_zero]

theorem Booked.of_oneQueue {s t : XmitPriv} (hs : Booked s) {k : ℕ} {ac : Ac} {d : ℤ}
    (h : OneQueue s t k ac d) (hk : k ∈ s.staHash)
    (hd : ((t.servq k ac).staPending.length : ℤ) = (s.servq k ac).staPending.length + d)
    (hqcnt : (t.servq k ac).qcnt = (t.servq k ac).staPending.length)
    (howned : ∀ f ∈ (t.servq k ac).staPending,
      acOf f.priority = ac ∧ f.psta = some k ∧ rtwGetStainfo s f.ra = some k)
    (hnodup : (t.staQueue ac).Nodup)
    (hlink : ∀ j, j ∈ t.staQueue ac ↔ (t.servq j ac).staPending ≠ []) : Booked t := by
  refine ⟨?_, ?_, ?_, ?_, ?_, ?_, ?_, ?_⟩
  · rw [h.table.staHash]
    exact hs.hash_nodup
  · rw [h.table.freeStaQueue]
    exact hs.free_nodup
  · rw [h.table.staHash, h.table.freeStaQueue]
    exact hs.free_not_mem
  · intro j ac' f hf
    rw [rtwGetStainfo_congr h.table]
    by_cases hj : j = k ∧ ac' = ac
    · obtain ⟨rfl, rfl⟩ := hj
      exact howned f hf
    · rw [h.servq j ac' (not_and_or.mp hj)] at hf
      exact hs.owned j ac' f hf
  · intro j ac'
    by_cases hj : j = k ∧ ac' = ac
    · obtain ⟨rfl, rfl⟩ := hj
      exact hqcnt
    · rw [h.servq j ac' (not_and_or.mp hj)]
      exact hs.qcnt j ac'
  · intro ac'
    rw [h.accnt, hs.accnt, h.total hk hd]
  · intro ac'
    by_cases hac : ac' = ac
    · rw [hac]
      exact hnodup
    · rw [h.staQueue ac' hac]
      exact hs.link_nodup ac'
  · intro j ac'
    by_cases hac : ac' = ac
    · rw [hac]
      exact hlink j
    · rw [h.staQueue ac' hac, h.servq j ac' (Or.inr hac)]
      exact hs.link j ac'

structure SameQueues (s t : XmitPriv) : Prop where
  table : SameTable s t
  servq : t.servq = s.servq
  staQueue : t.staQueue = s.staQueue
  accnt : t.accnt = s.accnt

theorem SameQueues.refl (s : XmitPriv) : SameQueues s s := ⟨SameTable.refl s, rfl, rfl, rfl⟩

theorem SameQueues.trans {s t u : XmitPriv} (h : SameQueues s t) (h' : SameQueues t u) :
    SameQueues s u :=
  ⟨h.table.trans h'.table, h'.servq.trans h.servq, h'.staQueue.trans h.staQueue,
    h'.accnt.trans h.accnt⟩

theorem SameQueues.setSta (s : XmitPriv) {k : ℕ} {p : Sta}
    (hp : p.macAddr = (s.sta k).macAddr) : SameQueues s (s.setSta k p) :=
  ⟨SameTable.setSta s hp, rfl, rfl, rfl⟩

theorem SameQueues.setTim (s : XmitPriv) (id : ℕ) : SameQueues s (s.setTim id) :=
  ⟨⟨rfl, rfl, fun _ => rfl⟩, rfl, rfl, rfl⟩

theorem SameQueues.clearTim (s : XmitPriv) (id : ℕ) : SameQueues s (s.clearTim id) :=
  ⟨⟨rfl, rfl, fun _ => rfl⟩, rfl, rfl, rfl⟩

theorem SameQueues.setDz (s : XmitPriv) (id : ℕ) : SameQueues s (s.setDz id) :=
  ⟨⟨rfl, rfl, fun _ => rfl⟩, rfl, rfl, rfl⟩

theorem SameQueues.clearDz (s : XmitPriv) (id : ℕ) : SameQueues s (s.clearDz id) :=
  ⟨⟨rfl, rfl, fun _ => rfl⟩, rfl, rfl, rfl⟩

theorem Booked.of_sameQueues {s t : XmitPriv} (hs : Booked s) (h : SameQueues s t) : Booked t := by
  obtain ⟨htable, hservq, hstaQueue, haccnt⟩ := h
  refine ⟨?_, ?_, ?_, ?_, ?_, ?_, ?_, ?_⟩
  · rw [htable.staHash]
    exact hs.hash_nodup
  · rw [htable.freeStaQueue]
    exact hs.free_nodup
  · rw [htable.staHash, htable.freeStaQueue]
    exact hs.free_not_mem
  · intro k ac f hf
    rw [rtwGetStainfo_congr htable]
    rw [hservq] at hf
    exact hs.owned k ac f hf
  · rw [hservq]
    exact hs.qcnt
  · intro ac
    rw [haccnt, hs.accnt, total, total, htable.staHash, hservq]
  · rw [hstaQueue]
    exact hs.link_nodup
  · rw [hstaQueue, hservq]
    exact hs.link

/-! ## Sending -/

theorem setServq_self (s : XmitPriv) (k : ℕ) (ac : Ac) (q : TxServq) :
    (s.setServq k ac q).servq k ac = q := by
  simp only [XmitPriv.setServq, Function.update_self]

theorem setServq_of_ne (s : XmitPriv) {k j : ℕ} {ac ac' : Ac} (q : TxServq)
    (h : j ≠ k ∨ ac' ≠ ac) : (s.setServq k ac q).servq j ac' = s.servq j ac' := by
  by_cases hj : j = k
  · subst hj
    have hac : ac' ≠ ac := h.resolve_left (not_not_intro rfl)
    simp only [XmitPriv.setServq, Function.update_self, Function.update_of_ne hac]
  · simp only [XmitPriv.setServq, Function.update_of_ne hj]

theorem unlinkServq_self (s : XmitPriv) (k : ℕ) (ac : Ac) :
    (s.unlinkServq k ac).staQueue ac = (s.staQueue ac).erase k := by
  simp only [XmitPriv.unlinkServq, Function.update_self]

theorem unlinkServq_of_ne (s : XmitPriv) (k : ℕ) {ac ac' : Ac} (h : ac' ≠ ac) :
    (s.unlinkServq k ac).staQueue ac' = s.staQueue ac' := by
  simp only [XmitPriv.unlinkServq, Function.update_of_ne h]

theorem addAccnt_apply (s : XmitPriv) (ac ac' : Ac) (n : ℤ) :
    (s.addAccnt ac n).accnt ac' = s.accnt ac' + if ac' = ac then n else 0 := by
  by_cases hac : ac' = ac
  · subst hac
    simp only [XmitPriv.addAccnt, Function.update_self, if_pos]
  · simp only [XmitPriv.addAccnt, Function.update_of_ne hac, if_neg hac, add_zero]

def writeQueue (s : XmitPriv) (k : ℕ) (ac : Ac) (q : TxServq) (n : ℤ) (l : List ℕ) : XmitPriv :=
  { (s.setServq k ac q).addAccnt ac n with staQueue := Function.update s.staQueue ac l }

theorem writeQueue_servq (s : XmitPriv) (k : ℕ) (ac : Ac) (q : TxServq) (n : ℤ) (l : List ℕ) :
    (writeQueue s k ac q n l).servq = (s.setServq k ac q).servq := rfl

theorem oneQueue_write (s : XmitPriv) (k : ℕ) (ac : Ac) (q : TxServq) (n : ℤ) (l : List ℕ) :
    OneQueue s (writeQueue s k ac q n l) k ac n := by
  refine ⟨⟨rfl, rfl, fun _ => rfl⟩, ?_, ?_, ?_⟩
  · intro j ac' h
    exact setServq_of_ne s q h
  · intro ac' h
    exact Function.update_of_ne h _ _
  · intro ac'
    exact addAccnt_apply s ac ac' n

theorem Booked.write {s : XmitPriv} (hs : Booked s) {k : ℕ} (hk : k ∈ s.staHash) {ac : Ac}
    {q : List XmitFrame} {c n : ℤ} {l : List ℕ}
    (howned : ∀ f ∈ q, acOf f.priority = ac ∧ f.psta = some k ∧ rtwGetStainfo s f.ra = some k)
    (hc : c = q.length) (hn : (q.length : ℤ) = (s.servq k ac).staPending.length + n)
    (hnodup : l.Nodup) (hself : k ∈ l ↔ q ≠ [])
    (hrest : ∀ j, j ≠ k → (j ∈ l ↔ j ∈ s.staQueue ac)) :
    Booked (writeQueue s k ac ⟨q, c⟩ n l) := by
  have hl : (writeQueue s k ac ⟨q, c⟩ n l).staQueue ac = l := Function.update_self _ _ _
  refine hs.of_oneQueue (oneQueue_write s k ac ⟨q, c⟩ n l) hk ?_ ?_ ?_ ?_ ?_
  · rw [writeQueue_servq, setServq_self]
    exact hn
  · rw [writeQueue_servq, setServq_self]
    exact hc
  · rw [writeQueue_servq, setServq_self]
    exact howned
  · rw [hl]
    exact hnodup
  · intro j
    rw [hl, writeQueue_servq]
    by_cases hj : j = k
    · subst hj
      rw [setServq_self]
      exact hself
    · rw [setServq_of_ne s _ (Or.inl hj), hrest j hj]
      exact hs.link j ac

theorem enqueueServq_eq (s : XmitPriv) (k : ℕ) (f : XmitFrame) :
    enqueueServq s k f =
      writeQueue s k (acOf f.priority) ⟨(s.servq k (acOf f.priority)).staPending ++ [f],
        (s.servq k (acOf f.priority)).qcnt + 1⟩ 1
        (if k ∈ s.staQueue (acOf f.priority) then s.staQueue (acOf f.priority)
          else s.staQueue (acOf f.priority) ++ [k]) := by
  simp only [enqueueServq, writeQueue]
  split_ifs with hk
  · simp only [XmitPriv.setServq, XmitPriv.addAccnt, Function.update_eq_self]
  · rfl

theorem enqueueServq_booked {s : XmitPriv} (hs : Booked s) {k : ℕ} {f : XmitFrame}
    (hget : rtwGetStainfo s f.ra = some k) (hpsta : f.psta = some k) :
    Booked (enqueueServq s k f) := by
  rw [enqueueServq_eq]
  refine hs.write (rtwGetStainfo_mem hget) ?_ ?_ ?_ ?_ ?_ ?_
  · intro g hg
    rcases List.mem_append.mp hg with hg | hg
    · exact hs.owned _ _ g hg
    · rw [List.mem_singleton] at hg
      subst hg
      exact ⟨rfl, hpsta, hget⟩
  · rw [hs.qcnt]
    simp only [List.length_append, List.length_singleton, Nat.cast_add, Nat.cast_one]
  · simp only [List.length_append, List.length_singleton, Nat.cast_add, Nat.cast_one]
  · split_ifs with hk
    · exact hs.link_nodup _
    · apply (hs.link_nodup _).append (List.nodup_singleton k)
      simpa using hk
  · split_ifs with hk <;> simp [hk]
  · intro j hj
    split_ifs with hk
    · exact Iff.rfl
    · simp [hj]

theorem rtwXmitClassifier_booked {s : XmitPriv} (hs : Booked s) (f : XmitFrame) :
    Booked (rtwXmitClassifier s f).1 := by
  simp only [rtwXmitClassifier]
  cases hget : rtwGetStainfo s f.ra with
  | none => exact hs
  | some k =>
    dsimp only
    split_ifs with hpsta hlinked
    · exact hs
    · exact hs
    · exact enqueueServq_booked hs hget (not_not.mp hpsta)

theorem rtwHalXmitframeEnqueue_booked {s : XmitPriv} (hs : Booked s) (f : XmitFrame) :
    Booked (rtwHalXmitframeEnqueue s f) := rtwXmitClassifier_booked hs f

theorem dequeueFrom_booked {s t : XmitPriv} (hs : Booked s) {ac : Ac} {stas : List ℕ}
    (hstas : ∀ k ∈ stas, k ∈ s.staQueue ac) {f : XmitFrame}
    (h : dequeueFrom s ac stas = some (f, t)) : Booked t := by
  induction stas with
  | nil => cases h
  | cons k stas ih =>
    cases hq : (s.servq k ac).staPending with
    | nil =>
      rw [dequeueFrom, hq] at h
      exact ih (fun j hj => hstas j (List.mem_cons_of_mem k hj)) h
    | cons g rest =>
      rw [dequeueFrom, hq] at h
      simp only [Option.some.injEq, Prod.mk.injEq] at h
      have hlen : (s.servq k ac).staPending.length = rest.length + 1 := by
        rw [hq, List.length_cons]
      have hcnt := hs.qcnt k ac
      have howned := hs.owned k ac
      rw [hq] at howned
      have hk : k ∈ s.staHash :=
        rtwGetStainfo_mem (howned g List.mem_cons_self).2.2
      have hlink : k ∈ s.staQueue ac := hstas k List.mem_cons_self
      have ht : t = writeQueue s k ac ⟨rest, (s.servq k ac).qcnt - 1⟩ (-1)
          (if rest = [] then (s.staQueue ac).erase k else s.staQueue ac) := by
        rw [← h.2, writeQueue]
        split_ifs
        · rfl
        · simp only [XmitPriv.setServq, XmitPriv.addAccnt, Function.update_eq_self]
      rw [ht]
      refine hs.write hk ?_ ?_ ?_ ?_ ?_ ?_
      · intro g' hg'
        exact howned g' (List.mem_cons_of_mem g hg')
      · omega
      · omega
      · split_ifs
        · exact (hs.link_nodup ac).erase k
        · exact hs.link_nodup ac
      · split_ifs with hrest
        · simp only [hrest, ne_eq, not_true_eq_false, iff_false]
          exact (hs.link_nodup ac).not_mem_erase
        · exact ⟨fun _ => hrest, fun _ => hlink⟩
      · intro j hj
        split_ifs
        · exact List.mem_erase_of_ne hj
        · exact Iff.rfl

theorem rtwDequeueXframe_booked {s t : XmitPriv} (hs : Booked s) {inx : List Ac} {f : XmitFrame}
    (h : rtwDequeueXframe s inx = some (f, t)) : Booked t := by
  induction inx with
  | nil => cases h
  | cons ac inx ih =>
    rw [rtwDequeueXframe] at h
    split at h
    · rename_i r hr
      rw [Option.some.inj h] at hr
      exact dequeueFrom_booked hs (fun k hk => hk) hr
    · exact ih h

/-! ## Waking up -/

theorem releaseAll_booked {s : XmitPriv} (hs : Booked s) (k : ℕ) (q : List XmitFrame) :
    Booked (releaseAll s k q) := by
  induction q generalizing s with
  | nil => exact hs
  | cons f q ih =>
    rw [releaseAll_cons]
    apply ih
    apply rtwHalXmitframeEnqueue_booked
    apply hs.of_sameQueues
    apply SameQueues.setSta
    rw [wakeFrame_sta]
    split_ifs
    · rfl
    · rfl

theorem releaseGroup_booked {s : XmitPriv} (hs : Booked s) (bmc : ℕ) (q : List XmitFrame) :
    Booked (releaseGroup s bmc q) := by
  induction q generalizing s with
  | nil => exact hs
  | cons f q ih =>
    apply ih
    apply rtwHalXmitframeEnqueue_booked
    apply hs.of_sameQueues
    exact SameQueues.setSta s rfl

theorem awaken_booked {s : XmitPriv} (hs : Booked s) (k : ℕ) : Booked (awaken s k) := by
  simp only [awaken]
  split_ifs
  · apply hs.of_sameQueues
    apply (SameQueues.clearTim s (s.sta k).aid).trans
    refine SameQueues.trans ?_ (SameQueues.clearDz _ _)
    exact SameQueues.setSta _ rfl
  · exact hs

theorem wakeupStaToXmit_booked {s : XmitPriv} (hs : Booked s) (k : ℕ) :
    Booked (wakeupStaToXmit s k) := by
  have hawake : Booked (awaken (releaseAll s k (s.sta k).sleepQ) k) :=
    awaken_booked (releaseAll_booked hs k _) k
  simp only [wakeupStaToXmit]
  split
  · exact hawake
  · rename_i bmc _
    split_ifs
    · exact hawake
    · apply (releaseGroup_booked hawake bmc _).of_sameQueues
      exact (SameQueues.clearTim _ 0).trans (SameQueues.clearDz _ 0)
    · exact releaseGroup_booked hawake bmc _

theorem deliverFrame_booked {s : XmitPriv} (hs : Booked s) (k : ℕ) (rest : List XmitFrame)
    (f : XmitFrame) : Booked (deliverFrame s k rest f).1 := by
  have hsent : ∀ f', Booked (rtwHalXmitframeEnqueue
      (s.setSta k (deliveredFrame ((s.sta k).setSleepQ rest) f).1) f') := by
    intro f'
    apply rtwHalXmitframeEnqueue_booked
    apply hs.of_sameQueues
    exact SameQueues.setSta s rfl
  simp only [deliverFrame]
  split_ifs
  · exact (hsent _).of_sameQueues (SameQueues.clearTim _ _)
  · exact hsent _

theorem deliverFrames_booked {s : XmitPriv} (hs : Booked s) (k : ℕ) (kept q : List XmitFrame) :
    Booked (deliverFrames s k kept q).1 := by
  induction q generalizing s kept with
  | nil => exact hs
  | cons f q ih =>
    simp only [deliverFrames]
    split_ifs
    · exact ih (deliverFrame_booked hs k _ f) kept
    · exact ih hs _

theorem processWmmpsData_booked {s : XmitPriv} (hs : Booked s) (k priority : ℕ) :
    Booked (processWmmpsData s k priority).1 := by
  simp only [processWmmpsData]
  split_ifs
  · exact hs
  · exact hs
  · exact deliverFrames_booked hs k _ _
  · exact hs

theorem pollOne_booked {s : XmitPriv} (hs : Booked s) (k : ℕ) (rest : List XmitFrame)
    (f : XmitFrame) : Booked (pollOne s k rest f) := by
  have hsent : ∀ f', Booked (rtwHalXmitframeEnqueue
      (s.setSta k (plainFrame ((s.sta k).setSleepQ rest) f).1) f') := by
    intro f'
    apply rtwHalXmitframeEnqueue_booked
    apply hs.of_sameQueues
    exact SameQueues.setSta s rfl
  simp only [pollOne]
  split_ifs
  · exact (hsent _).of_sameQueues (SameQueues.clearTim _ _)
  · exact hsent _

theorem pollNone_booked {s : XmitPriv} (hs : Booked s) (k : ℕ) : Booked (pollNone s k) := by
  simp only [pollNone]
  split_ifs
  · apply hs.of_sameQueues
    refine SameQueues.trans ?_ (SameQueues.clearTim _ _)
    exact SameQueues.setSta s rfl
  · exact hs

theorem psPoll_booked {s : XmitPriv} (hs : Booked s) (k aid priority : ℕ) :
    Booked (psPoll s k aid priority) := by
  simp only [psPoll]
  split_ifs
  · cases (s.sta k).sleepQ with
    | nil => exact pollNone_booked hs k
    | cons f q => exact pollOne_booked hs k q f
  · exact hs

/-! ## Going to sleep -/

structure Steady (s t : XmitPriv) : Prop where
  linked : ∀ j, (t.sta j).linked = (s.sta j).linked
  sleepState : ∀ j, (t.sta j).sleepState = (s.sta j).sleepState
  aid : ∀ j, (t.sta j).aid = (s.sta j).aid
  macAddr : ∀ j, (t.sta j).macAddr = (s.sta j).macAddr
  dozing : ∀ id, s.staDzBitmap id = true → t.staDzBitmap id = true

theorem Steady.refl (s : XmitPriv) : Steady s s :=
  ⟨fun _ => rfl, fun _ => rfl, fun _ => rfl, fun _ => rfl, fun _ h => h⟩

theorem Steady.trans {s t u : XmitPriv} (h : Steady s t) (h' : Steady t u) : Steady s u :=
  ⟨fun j => (h'.linked j).trans (h.linked j), fun j => (h'.sleepState j).trans (h.sleepState j),
    fun j => (h'.aid j).trans (h.aid j), fun j => (h'.macAddr j).trans (h.macAddr j),
    fun id hid => h'.dozing id (h.dozing id hid)⟩

theorem Steady.setSta (s : XmitPriv) {k : ℕ} {p : Sta} (hlinked : p.linked = (s.sta k).linked)
    (hsleep : p.sleepState = (s.sta k).sleepState) (haid : p.aid = (s.sta k).aid)
    (hmac : p.macAddr = (s.sta k).macAddr) : Steady s (s.setSta k p) := by
  refine ⟨?_, ?_, ?_, ?_, fun _ h => h⟩
  all_goals
    intro j
    by_cases hj : j = k
    · subst hj
      rw [XmitPriv.setSta_self]
      assumption
    · rw [XmitPriv.setSta_of_ne s hj]

structure Accepting (s : XmitPriv) (j : ℕ) : Prop where
  linked : (s.sta j).linked = true
  dozing : rtwTimMapAnyoneBeSet s.staDzBitmap = true
  asleep : (s.sta j).macAddr = bcAddr ∨
    ((s.sta j).sleepState = true ∧ s.staDzBitmap (s.sta j).aid = true)

theorem Accepting.of_steady {s t : XmitPriv} {j : ℕ} (h : Accepting s j) (hst : Steady s t) :
    Accepting t j := by
  refine ⟨?_, rtwTimMapAnyoneBeSet_mono hst.dozing h.dozing, ?_⟩
  · rw [hst.linked]
    exact h.linked
  · rw [hst.macAddr, hst.sleepState, hst.aid]
    exact h.asleep.imp_right fun ⟨hsleep, hdz⟩ => ⟨hsleep, hst.dozing _ hdz⟩

/-- The frame goes to the sleep queue; neither the queues nor the flags are touched. -/
theorem xmitframeEnqueueForSleepingSta_accepted {s : XmitPriv} {k : ℕ} (hk : Accepting s k)
    {f : XmitFrame} (hpsta : f.psta = some k) (hget : rtwGetStainfo s f.ra = some k)
    (htrig : f.triggered = false) :
    (xmitframeEnqueueForSleepingSta s f).2 = true ∧
      SameQueues s (xmitframeEnqueueForSleepingSta s f).1 ∧
      Steady s (xmitframeEnqueueForSleepingSta s f).1 := by
  simp only [xmitframeEnqueueForSleepingSta, hget, hpsta, ne_eq, not_true_eq_false, if_false,
    hk.linked, htrig, Bool.false_eq_true, Bool.true_eq_false, rtwTimMapIsSet_aid]
  split_ifs with hmc hdz hsleep hann
  · refine ⟨rfl, ?_, ?_⟩
    · refine SameQueues.trans ?_ (SameQueues.setDz _ 0)
      refine SameQueues.trans ?_ (SameQueues.setTim _ 0)
      exact SameQueues.setSta s rfl
    · have hsta := Steady.setSta s (k := k) (p := (s.sta k).bufferGroup f) rfl rfl rfl rfl
      refine ⟨hsta.linked, hsta.sleepState, hsta.aid, hsta.macAddr, ?_⟩
      intro id hid
      change rtwTimMapSet s.staDzBitmap 0 id = true
      rw [rtwTimMapSet_zero, Function.update_apply]
      split_ifs
      · rfl
      · exact hid
  · exact absurd hk.dozing hdz
  · refine ⟨rfl, ?_, ?_⟩
    · refine SameQueues.trans ?_ (SameQueues.setTim _ _)
      exact SameQueues.setSta s rfl
    · have hsta := Steady.setSta s (k := k) (p := (s.sta k).buffer f) rfl rfl rfl rfl
      exact ⟨hsta.linked, hsta.sleepState, hsta.aid, hsta.macAddr, hsta.dozing⟩
  · exact ⟨rfl, SameQueues.setSta s rfl, Steady.setSta s rfl rfl rfl rfl⟩
  · rcases hk.asleep with hmac | hasleep
    · have hra := rtwGetStainfo_macAddr hget
      rw [if_neg hmc, hmac] at hra
      rw [← hra] at hmc
      exact absurd isMcast_bcAddr hmc
    · exact absurd hasleep hsleep

/-- `n` frames of one queue have been counted off, none of them unlinked yet. -/
structure Handed (s t : XmitPriv) (k : ℕ) (ac : Ac) (n : ℕ) : Prop where
  table : SameTable s t
  staQueue : t.staQueue = s.staQueue
  servq : ∀ j ac', j ≠ k ∨ ac' ≠ ac → t.servq j ac' = s.servq j ac'
  staPending : (t.servq k ac).staPending = (s.servq k ac).staPending
  qcnt : (t.servq k ac).qcnt = (s.servq k ac).qcnt - n
  accnt : ∀ ac', t.accnt ac' = s.accnt ac' + if ac' = ac then -(n : ℤ) else 0
  steady : Steady s t

theorem framesToSleepingQueue_accepted {s : XmitPriv} {k : ℕ} (hk : Accepting s k) {ac : Ac}
    {q : List XmitFrame}
    (hq : ∀ f ∈ q, acOf f.priority = ac ∧ f.psta = some k ∧ rtwGetStainfo s f.ra = some k) :
    (framesToSleepingQueue s k q).2 = [] ∧
      Handed s (framesToSleepingQueue s k q).1 k ac q.length := by
  induction q generalizing s with
  | nil =>
    refine ⟨rfl, SameTable.refl s, rfl, fun _ _ _ => rfl, rfl, ?_, ?_, Steady.refl s⟩
    · simp only [framesToSleepingQueue, List.length_nil, Nat.cast_zero, sub_zero]
    · simp only [framesToSleepingQueue, List.length_nil, Nat.cast_zero, neg_zero, ite_self,
        add_zero, implies_true]
  | cons f q ih =>
    obtain ⟨hac, hpsta, hget⟩ := hq f List.mem_cons_self
    obtain ⟨htrue, hsame, hsteady⟩ :=
      xmitframeEnqueueForSleepingSta_accepted hk (f := { f with triggered := false }) hpsta hget rfl
    simp only [framesToSleepingQueue, htrue, if_true, hac]
    generalize (xmitframeEnqueueForSleepingSta s { f with triggered := false }).1 = u
      at hsame hsteady ⊢
    have hu : Steady s ((u.setServq k ac { u.servq k ac with
        qcnt := (u.servq k ac).qcnt - 1 }).addAccnt ac (-1)) :=
      ⟨hsteady.linked, hsteady.sleepState, hsteady.aid, hsteady.macAddr, hsteady.dozing⟩
    have hut : SameTable s ((u.setServq k ac { u.servq k ac with
        qcnt := (u.servq k ac).qcnt - 1 }).addAccnt ac (-1)) :=
      ⟨hsame.table.staHash, hsame.table.freeStaQueue, hsame.table.macAddr⟩
    obtain ⟨hnil, hh⟩ := ih (hk.of_steady hu) (by
      intro g hg
      rw [rtwGetStainfo_congr hut]
      exact hq g (List.mem_cons_of_mem f hg))
    refine ⟨hnil, hut.trans hh.table, ?_, ?_, ?_, ?_, ?_, hu.trans hh.steady⟩
    · rw [hh.staQueue]
      exact hsame.staQueue
    · intro j ac' hne
      rw [hh.servq j ac' hne]
      change (u.setServq k ac _).servq j ac' = _
      rw [setServq_of_ne u _ hne, hsame.servq]
    · rw [hh.staPending]
      change ((u.setServq k ac _).servq k ac).staPending = _
      rw [setServq_self, hsame.servq]
    · rw [hh.qcnt]
      change ((u.setServq k ac _).servq k ac).qcnt - _ = _
      rw [setServq_self, hsame.servq, List.length_cons]
      push_cast
      omega
    · intro ac'
      rw [hh.accnt, addAccnt_apply]
      change u.accnt ac' + _ + _ = _
      rw [hsame.accnt, List.length_cons]
      split_ifs
      · push_cast
        omega
      · omega

def Idle (s : XmitPriv) (j : ℕ) : Prop := ∀ ac, (s.servq j ac).staPending = []

instance (s : XmitPriv) (j : ℕ) : Decidable (Idle s j) := inferInstanceAs (Decidable (∀ _, _))

def Movable (s : XmitPriv) (j : ℕ) : Prop := Idle s j ∨ Accepting s j

structure Stopped (s t : XmitPriv) : Prop where
  booked : Booked t
  table : SameTable s t
  movable : ∀ j, Movable s j → Movable t j

theorem Stopped.trans {s t u : XmitPriv} (h : Stopped s t) (h' : Stopped t u) : Stopped s u :=
  ⟨h'.booked, h.table.trans h'.table, fun j hj => h'.movable j (h.movable j hj)⟩

theorem framesToSleepingQueue_handed {s : XmitPriv} (hs : Booked s) {k : ℕ}
    (hmove : Movable s k) (ac : Ac) :
    (framesToSleepingQueue s k (s.servq k ac).staPending).2 = [] ∧
      Handed s (framesToSleepingQueue s k (s.servq k ac).staPending).1 k ac
        (s.servq k ac).staPending.length := by
  rcases hmove with hempty | hacc
  · rw [hempty ac]
    refine ⟨rfl, SameTable.refl s, rfl, fun _ _ _ => rfl, rfl, ?_, ?_, Steady.refl s⟩
    · simp only [framesToSleepingQueue, List.length_nil, Nat.cast_zero, sub_zero]
    · simp only [framesToSleepingQueue, List.length_nil, Nat.cast_zero, neg_zero, ite_self,
        add_zero, implies_true]
  · exact framesToSleepingQueue_accepted hacc (hs.owned k ac)

theorem Handed.stopped {s u : XmitPriv} (hs : Booked s) {k : ℕ} (hk : k ∈ s.staHash) {ac : Ac}
    (hh : Handed s u k ac (s.servq k ac).staPending.length) :
    Stopped s ((u.setServq k ac ⟨[], (u.servq k ac).qcnt⟩).unlinkServq k ac) := by
  generalize hv : u.setServq k ac ⟨[], (u.servq k ac).qcnt⟩ = v
  have hself : v.servq k ac = ⟨[], (u.servq k ac).qcnt⟩ := by
    rw [← hv, setServq_self]
  have hservq : ∀ j ac', j ≠ k ∨ ac' ≠ ac → v.servq j ac' = s.servq j ac' := by
    intro j ac' hne
    rw [← hv, setServq_of_ne u _ hne, hh.servq j ac' hne]
  have hqueue : v.staQueue = s.staQueue := by
    rw [← hh.staQueue, ← hv]
    rfl
  have htable : SameTable s v := by
    rw [← hv]
    exact ⟨hh.table.staHash, hh.table.freeStaQueue, hh.table.macAddr⟩
  have haccnt : v.accnt = u.accnt := by
    rw [← hv]
    rfl
  have hsteady : Steady s v := by
    rw [← hv]
    exact ⟨hh.steady.linked, hh.steady.sleepState, hh.steady.aid, hh.steady.macAddr,
      hh.steady.dozing⟩
  have hone : OneQueue s (v.unlinkServq k ac) k ac (-((s.servq k ac).staPending.length : ℤ)) := by
    refine ⟨⟨htable.staHash, htable.freeStaQueue, htable.macAddr⟩, hservq, ?_, ?_⟩
    · intro ac' hne
      rw [unlinkServq_of_ne v k hne, hqueue]
    · intro ac'
      change v.accnt ac' = _
      rw [haccnt, hh.accnt]
  refine ⟨?_, hone.table, ?_⟩
  · refine hs.of_oneQueue hone hk ?_ ?_ ?_ ?_ ?_
    · change ((v.servq k ac).staPending.length : ℤ) = _
      rw [hself, List.length_nil, Nat.cast_zero]
      omega
    · change (v.servq k ac).qcnt = ((v.servq k ac).staPending.length : ℤ)
      rw [hself]
      simp only [hh.qcnt, hs.qcnt, List.length_nil, Nat.cast_zero, sub_self]
    · intro f hf
      change f ∈ (v.servq k ac).staPending at hf
      rw [hself] at hf
      cases hf
    · rw [unlinkServq_self, hqueue]
      exact (hs.link_nodup ac).erase k
    · intro j
      rw [unlinkServq_self, hqueue]
      change j ∈ (s.staQueue ac).erase k ↔ (v.servq j ac).staPending ≠ []
      by_cases hj : j = k
      · subst hj
        rw [hself]
        simp only [(hs.link_nodup ac).not_mem_erase, ne_eq, not_true_eq_false]
      · rw [hservq j ac (Or.inl hj), List.mem_erase_of_ne hj]
        exact hs.link j ac
  · intro j hj
    rcases hj with hempty | hacc
    · left
      intro ac'
      change (v.servq j ac').staPending = []
      by_cases hne : j = k ∧ ac' = ac
      · obtain ⟨rfl, rfl⟩ := hne
        rw [hself]
      · rw [hservq j ac' (not_and_or.mp hne)]
        exact hempty ac'
    · right
      apply hacc.of_steady
      exact ⟨hsteady.linked, hsteady.sleepState, hsteady.aid, hsteady.macAddr, hsteady.dozing⟩

theorem stopServq_stopped {s : XmitPriv} (hs : Booked s) {k : ℕ} (hk : k ∈ s.staHash)
    (hmove : Movable s k) (ac : Ac) : Stopped s (stopServq s k ac) := by
  obtain ⟨hnil, hh⟩ := framesToSleepingQueue_handed hs hmove ac
  have hstop := hh.stopped hs hk
  simpa only [stopServq, dequeueXmitframesToSleepingQueue, hnil] using hstop

theorem stopServqs_stopped {s : XmitPriv} (hs : Booked s) {k : ℕ} (hk : k ∈ s.staHash)
    (hmove : Movable s k) : Stopped s (stopServqs s k) := by
  have hstep : ∀ {t : XmitPriv} (ac : Ac), Stopped s t → Stopped s (stopServq t k ac) := by
    intro t ac ht
    apply ht.trans
    apply stopServq_stopped ht.booked
    · rw [ht.table.staHash]
      exact hk
    · exact ht.movable k hmove
  apply hstep
  apply hstep
  apply hstep
  exact stopServq_stopped hs hk hmove .vo

/-- Each station whose queues are emptied is associated or has nothing queued. -/
def SleepOk (s : XmitPriv) : Event → Prop
  | .sleep k => ((s.sta k).linked = true ∨ Idle s k) ∧
      ∀ bmc ∈ rtwGetBcmcStainfo s, (s.sta bmc).linked = true ∨ Idle s bmc
  | _ => True

instance (s : XmitPriv) : ∀ e, Decidable (SleepOk s e)
  | .sleep _ => inferInstanceAs (Decidable (_ ∧ _))
  | .enqueue _ | .classify _ | .dequeue _ | .wakeUp _ | .psPoll _ _ _ | .trigger _ _ | .alloc _
  | .assoc _ _ _ | .updateBmcSta | .apFreeSta _ | .free _ _ => inferInstanceAs (Decidable True)

theorem stopStaXmit_booked {s : XmitPriv} (hs : Booked s) {k bmc : ℕ} (hk : k ∈ s.staHash)
    (hbmc : rtwGetBcmcStainfo s = some bmc) (hok : SleepOk s (.sleep k)) :
    Booked (stopStaXmit s k bmc) := by
  have hsame : SameQueues s
      ((s.setSta k ((s.sta k).setSleep true)).setDz (s.sta k).aid) := by
    refine SameQueues.trans ?_ (SameQueues.setDz _ _)
    exact SameQueues.setSta s rfl
  have hdz : ((s.setSta k ((s.sta k).setSleep true)).setDz (s.sta k).aid).staDzBitmap
      (s.sta k).aid = true := by
    change rtwTimMapSet s.staDzBitmap (s.sta k).aid (s.sta k).aid = true
    rw [rtwTimMapSet_aid, Function.update_self]
  have hmove : ∀ j, j = k ∨ rtwGetBcmcStainfo s = some j → Movable
      ((s.setSta k ((s.sta k).setSleep true)).setDz (s.sta k).aid) j := by
    intro j hj
    have hokj : (s.sta j).linked = true ∨ Idle s j := by
      rcases hj with rfl | hj
      · exact hok.1
      · exact hok.2 j hj
    rcases hokj with hlinked | hempty
    · right
      refine ⟨?_, rtwTimMapAnyoneBeSet_of_aid hdz, ?_⟩
      · change ((s.setSta k _).sta j).linked = true
        by_cases hjk : j = k
        · subst hjk
          rw [XmitPriv.setSta_self]
          exact hlinked
        · rw [XmitPriv.setSta_of_ne s hjk]
          exact hlinked
      · rcases hj with rfl | hj
        · right
          refine ⟨?_, ?_⟩
          · change ((s.setSta j _).sta j).sleepState = true
            rw [XmitPriv.setSta_self]
            rfl
          · change rtwTimMapSet s.staDzBitmap (s.sta j).aid ((s.setSta j _).sta j).aid = true
            rw [XmitPriv.setSta_self, rtwTimMapSet_aid]
            exact Function.update_self _ _ _
        · left
          rw [hsame.table.macAddr, rtwGetStainfo_macAddr hj, isMcast_bcAddr, if_pos rfl]
    · exact Or.inl hempty
  have hstart : (s.setSta k ((s.sta k).setSleep true)).setDz
      ((s.setSta k ((s.sta k).setSleep true)).sta k).aid =
      (s.setSta k ((s.sta k).setSleep true)).setDz (s.sta k).aid := by
    rw [XmitPriv.setSta_self]
    rfl
  simp only [stopStaXmit, hstart]
  have hfirst := stopServqs_stopped (hs.of_sameQueues hsame) (k := k)
    (by rw [hsame.table.staHash]; exact hk) (hmove k (Or.inl rfl))
  refine (stopServqs_stopped hfirst.booked ?_ (hfirst.movable bmc (hmove bmc (Or.inr hbmc)))).booked
  rw [hfirst.table.staHash, hsame.table.staHash]
  exact rtwGetStainfo_mem hbmc

/-! ## Stations come and go -/

theorem flushServq_booked {s : XmitPriv} (hs : Booked s) {k : ℕ} (hk : k ∈ s.staHash) (ac : Ac) :
    Booked (flushServq s k ac) := by
  have hflush : flushServq s k ac =
      writeQueue s k ac ⟨[], 0⟩ (-(s.servq k ac).qcnt) ((s.staQueue ac).erase k) := rfl
  rw [hflush]
  refine hs.write hk ?_ rfl ?_ ((hs.link_nodup ac).erase k) ?_ ?_
  · intro f hf
    cases hf
  · rw [hs.qcnt, List.length_nil, Nat.cast_zero]
    omega
  · simp only [(hs.link_nodup ac).not_mem_erase, ne_eq, not_true_eq_false]
  · intro j hj
    exact List.mem_erase_of_ne hj

theorem flushServq_table (s : XmitPriv) (k : ℕ) (ac : Ac) : SameTable s (flushServq s k ac) :=
  ⟨rfl, rfl, fun _ => rfl⟩

theorem flushServqs_booked {s : XmitPriv} (hs : Booked s) {k : ℕ} (hk : k ∈ s.staHash) :
    Booked (flushServqs s k) ∧ SameTable s (flushServqs s k) := by
  have hstep : ∀ {t : XmitPriv} (ac : Ac), Booked t ∧ SameTable s t →
      Booked (flushServq t k ac) ∧ SameTable s (flushServq t k ac) := by
    intro t ac ht
    refine ⟨flushServq_booked ht.1 ?_ ac, ht.2.trans (flushServq_table t k ac)⟩
    rw [ht.2.staHash]
    exact hk
  apply hstep
  apply hstep
  apply hstep
  exact hstep .vo ⟨hs, SameTable.refl s⟩

theorem flushServqs_servq (s : XmitPriv) (k : ℕ) (ac : Ac) :
    ((flushServqs s k).servq k ac).staPending = [] := by
  cases ac <;>
    simp [flushServqs, flushServq, XmitPriv.setServq, XmitPriv.unlinkServq, XmitPriv.addAccnt]

theorem Booked.remove {s t : XmitPriv} (hs : Booked s) {k : ℕ} (hk : k ∈ s.staHash)
    (hempty : ∀ ac, (s.servq k ac).staPending = []) (hhash : t.staHash = s.staHash.erase k)
    (hfree : t.freeStaQueue = s.freeStaQueue ++ [k])
    (hmac : ∀ j, (t.sta j).macAddr = (s.sta j).macAddr) (hservq : t.servq = s.servq)
    (hqueue : t.staQueue = s.staQueue) (haccnt : t.accnt = s.accnt) : Booked t := by
  have hkfree : k ∉ s.freeStaQueue := fun h => hs.free_not_mem k h hk
  refine ⟨?_, ?_, ?_, ?_, ?_, ?_, ?_, ?_⟩
  · rw [hhash]
    exact hs.hash_nodup.erase k
  · rw [hfree]
    exact hs.free_nodup.append (List.nodup_singleton k) (by simpa using hkfree)
  · rw [hfree, hhash]
    intro j hj hmem
    rcases List.mem_append.mp hj with hj | hj
    · exact hs.free_not_mem j hj (List.mem_of_mem_erase hmem)
    · rw [List.mem_singleton] at hj
      subst hj
      exact hs.hash_nodup.not_mem_erase hmem
  · intro j ac f hf
    rw [hservq] at hf
    obtain ⟨hac, hpsta, hget⟩ := hs.owned j ac f hf
    refine ⟨hac, hpsta, ?_⟩
    simp only [rtwGetStainfo, hhash, hmac]
    apply HashBuckets.find?_erase_of_ne hget
    rintro rfl
    rw [hempty ac] at hf
    cases hf
  · rw [hservq]
    exact hs.qcnt
  · intro ac
    have hmem : k ∈ s.staHash.toFinset := List.mem_toFinset.mpr hk
    have hset : t.staHash.toFinset = s.staHash.toFinset.erase k := by
      ext j
      rw [hhash, Finset.mem_erase, List.mem_toFinset, List.mem_toFinset,
        hs.hash_nodup.mem_erase_iff]
    rw [haccnt, hs.accnt, total, total, hset, hservq, ← Finset.add_sum_erase _ _ hmem,
      hempty ac, List.length_nil, Nat.cast_zero, zero_add]
  · rw [hqueue]
    exact hs.link_nodup
  · rw [hqueue, hservq]
    exact hs.link

theorem rtwFreeStainfo_booked {s : XmitPriv} (hs : Booked s) {k : ℕ} (hk : k ∈ s.staHash)
    (ownsAid : Bool) : Booked (rtwFreeStainfo s k ownsAid) := by
  obtain ⟨hflush, htable⟩ := flushServqs_booked hs hk
  have hempty := flushServqs_servq s k
  have hsta := flushServqs_sta s k
  simp only [rtwFreeStainfo]
  generalize flushServqs s k = u at hflush htable hempty hsta ⊢
  refine hflush.remove (k := k) ?_ hempty rfl rfl ?_ rfl rfl rfl
  · rw [htable.staHash]
    exact hk
  · intro j
    have hp : ((s.sta k).freed ownsAid).macAddr = (u.sta k).macAddr := by
      rw [hsta]
      rfl
    exact (SameTable.setSta u hp).macAddr j

theorem rtwAllocStainfo_booked {s : XmitPriv} (hs : Booked s) (hwaddr : MacAddr) :
    Booked (rtwAllocStainfo s hwaddr) := by
  simp only [rtwAllocStainfo]
  split
  · exact hs
  · rename_i k free hfree
    have hnodup := hs.free_nodup
    rw [hfree] at hnodup
    have hk : k ∉ s.staHash := hs.free_not_mem k (by rw [hfree]; exact List.mem_cons_self)
    have hservq : ∀ j ac, (Function.update s.servq k (fun _ => {}) j ac).staPending =
        (s.servq j ac).staPending := by
      intro j ac
      by_cases hj : j = k
      · subst hj
        rw [Function.update_self, hs.empty hk]
      · rw [Function.update_of_ne hj]
    refine ⟨?_, hnodup.of_cons, ?_, ?_, ?_, ?_, hs.link_nodup, ?_⟩
    · exact hs.hash_nodup.append (List.nodup_singleton k) (by simpa using hk)
    · intro j hj hmem
      rcases List.mem_append.mp hmem with hmem | hmem
      · exact hs.free_not_mem j (by rw [hfree]; exact List.mem_cons_of_mem k hj) hmem
      · rw [List.mem_singleton] at hmem
        subst hmem
        exact (List.nodup_cons.mp hnodup).1 hj
    · intro j ac f hf
      rw [hservq] at hf
      obtain ⟨hac, hpsta, hget⟩ := hs.owned j ac f hf
      refine ⟨hac, hpsta, ?_⟩
      -- The new entry stands behind the one that is found.
      simp only [rtwGetStainfo] at hget ⊢
      rw [List.find?_append, Option.or_eq_some_iff]
      left
      rw [← hget]
      apply List.find?_congr
      intro i hi
      have hik : i ≠ k := by
        rintro rfl
        exact hk hi
      simp only [Function.update_of_ne hik]
    · intro j ac
      rw [hservq]
      change (Function.update s.servq k (fun _ => {}) j ac).qcnt = _
      by_cases hj : j = k
      · subst hj
        rw [Function.update_self, hs.empty hk]
        rfl
      · rw [Function.update_of_ne hj]
        exact hs.qcnt j ac
    · intro ac
      rw [hs.accnt, total, total]
      simp only [hservq, List.toFinset_append, List.toFinset_cons, List.toFinset_nil]
      rw [Finset.union_insert, Finset.union_empty, Finset.sum_insert (by simpa using hk),
        hs.empty hk, List.length_nil, Nat.cast_zero, zero_add]
    · intro j ac
      rw [hservq]
      exact hs.link j ac

theorem rtwApParseStaWmmIe_macAddr (p : Sta) (wmm : Option ℕ) :
    (rtwApParseStaWmmIe p wmm).macAddr = p.macAddr := by
  cases wmm <;> rfl

theorem assocSta_booked {s : XmitPriv} (hs : Booked s) (k : ℕ) (aid : Fin (maxAid + 1))
    (wmm : Option ℕ) : Booked (assocSta s k aid wmm) := by
  simp only [assocSta]
  split_ifs
  · exact hs
  · apply hs.of_sameQueues
    apply SameQueues.setSta
    exact rtwApParseStaWmmIe_macAddr (s.sta k) wmm

theorem xmitframeEnqueueForSleepingSta_sameQueues (s : XmitPriv) (f : XmitFrame) :
    SameQueues s (xmitframeEnqueueForSleepingSta s f).1 := by
  simp only [xmitframeEnqueueForSleepingSta]
  split
  · exact SameQueues.refl s
  · rename_i k _
    have hgroup : SameQueues s (s.setSta k ((s.sta k).bufferGroup f)) := SameQueues.setSta s rfl
    have hbuffer : SameQueues s (s.setSta k ((s.sta k).buffer f)) := SameQueues.setSta s rfl
    split_ifs
    · exact SameQueues.refl s
    · exact SameQueues.refl s
    · exact SameQueues.refl s
    · exact (hgroup.trans (SameQueues.setTim _ 0)).trans (SameQueues.setDz _ 0)
    · exact SameQueues.refl s
    · exact hbuffer.trans (SameQueues.setTim _ _)
    · exact hbuffer
    · exact SameQueues.refl s

/-! ## Runs -/

theorem Event.apply_booked {s : XmitPriv} (hs : Booked s) {e : Event} (hok : SleepOk s e) :
    Booked (e.apply s) := by
  cases e with
  | enqueue f => exact hs.of_sameQueues (xmitframeEnqueueForSleepingSta_sameQueues s f)
  | classify f => exact rtwXmitClassifier_booked hs f
  | dequeue inx =>
    simp only [Event.apply]
    cases hd : rtwDequeueXframe s inx with
    | none => exact hs
    | some r => exact rtwDequeueXframe_booked hs hd
  | sleep k =>
    simp only [Event.apply, onSta]
    split_ifs with hk
    · cases hbmc : rtwGetBcmcStainfo s with
      | none => exact hs
      | some bmc => exact stopStaXmit_booked hs hk hbmc hok
    · exact hs
  | wakeUp k =>
    simp only [Event.apply, onSta]
    split_ifs
    · exact wakeupStaToXmit_booked hs k
    · exact hs
  | psPoll ta aid priority =>
    simp only [Event.apply]
    cases rtwGetStainfo s ta with
    | none => exact hs
    | some k => exact psPoll_booked hs k aid priority
  | trigger ta priority =>
    simp only [Event.apply]
    cases rtwGetStainfo s ta with
    | none => exact hs
    | some k => exact processWmmpsData_booked hs k priority
  | alloc hwaddr =>
    simp only [Event.apply]
    split_ifs
    · exact rtwAllocStainfo_booked hs hwaddr
    · exact hs
  | assoc k aid wmm =>
    simp only [Event.apply, onSta]
    split_ifs
    · exact assocSta_booked hs k aid wmm
    · exact hs
  | updateBmcSta =>
    simp only [Event.apply]
    cases rtwGetBcmcStainfo s with
    | none => exact hs
    | some k => exact hs.of_sameQueues (SameQueues.setSta s rfl)
  | apFreeSta k =>
    simp only [Event.apply, onSta]
    split_ifs
    · exact hs.of_sameQueues (SameQueues.setSta s rfl)
    · exact hs
  | free k ownsAid =>
    simp only [Event.apply, onSta]
    split_ifs with hk
    · exact rtwFreeStainfo_booked hs hk ownsAid
    · exact hs

theorem initXmitPriv_booked (numSta : ℕ) : Booked (initXmitPriv numSta) := by
  refine ⟨List.nodup_nil, List.nodup_range, ?_, ?_, ?_, ?_, ?_, ?_⟩
  · intro k _ hk
    cases hk
  · intro k ac f hf
    cases hf
  · intro k ac
    rfl
  · intro ac
    rfl
  · intro ac
    exact List.nodup_nil
  · intro k ac
    simp [initXmitPriv]

/-- The queues, their counters, the counters of the categories and the links agree. -/
structure Bookkept (s : XmitPriv) : Prop where
  qcnt : ∀ k ac, (s.servq k ac).qcnt = (s.servq k ac).staPending.length
  accnt : ∀ ac, s.accnt ac = total s ac
  link : ∀ k ac, k ∈ s.staQueue ac ↔ (s.servq k ac).staPending ≠ []

theorem run_bookkept (numSta : ℕ) {es : List Event}
    (hes : Along Event.apply SleepOk (initXmitPriv numSta) es) :
    Bookkept (ApXmit.run (initXmitPriv numSta) es) := by
  have hs : Booked (ApXmit.run (initXmitPriv numSta) es) :=
    run_spec SleepOk Booked (fun s e hs he => Event.apply_booked hs he)
      (initXmitPriv_booked numSta) hes
  exact ⟨hs.qcnt, hs.accnt, hs.link⟩

theorem run_bookkept_sleep : Bookkept (ApXmit.run (initXmitPriv 32)
    (oneAssociated ++ [.classify (frameTo 1 firstAddr 0), .sleep 1])) :=
  run_bookkept 32 (by decide +kernel)

/-- The frame of a station that is deauthenticated and then goes to sleep is stranded. -/
theorem sleep_strands_frame : ¬ Bookkept (ApXmit.run (initXmitPriv 32)
    (oneAssociated ++ [.classify (frameTo 1 firstAddr 0), .apFreeSta 1, .sleep 1])) := by
  intro h
  exact absurd (h.link 1 .be) (by decide +kernel)

end Rtl8189.XmitQueue
