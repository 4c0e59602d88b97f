import Rtl8189.ApXmit

/-!
# Accounts of the power save buffers

`sleepq_len` counts the frames of a sleep queue and `sleepq_ac_len` those of
delivery enabled categories. Enqueueing, service periods and wake-up keep both.
A PS-Poll hands out the head of the queue whatever its category and leaves
`sleepq_ac_len` alone, so that the next service period ends without EOSP.
-/
namespace Rtl8189.PowerSave

open ApXmit EventRun

/-! ## What sending leaves alone -/

structure SameSleep (s t : XmitPriv) : Prop where
  staHash : t.staHash = s.staHash
  freeStaQueue : t.freeStaQueue = s.freeStaQueue
  sta : t.sta = s.sta
  timBitmap : t.timBitmap = s.timBitmap
  staDzBitmap : t.staDzBitmap = s.staDzBitmap

theorem SameSleep.refl (s : XmitPriv) : SameSleep s s := ⟨rfl, rfl, rfl, rfl, rfl⟩

theorem SameSleep.trans {s t u : XmitPriv} (h : SameSleep s t) (h' : SameSleep t u) :
    SameSleep s u :=
  ⟨h'.staHash.trans h.staHash, h'.freeStaQueue.trans h.freeStaQueue, h'.sta.trans h.sta,
    h'.timBitmap.trans h.timBitmap, h'.staDzBitmap.trans h.staDzBitmap⟩

theorem enqueueServq_sameSleep (s : XmitPriv) (k : ℕ) (f : XmitFrame) :
    SameSleep s (enqueueServq s k f) := by
  simp only [enqueueServq]
  split_ifs
  · exact ⟨rfl, rfl, rfl, rfl, rfl⟩
  · exact ⟨rfl, rfl, rfl, rfl, rfl⟩

theorem rtwXmitClassifier_sameSleep (s : XmitPriv) (f : XmitFrame) :
    SameSleep s (rtwXmitClassifier s f).1 := by
  simp only [rtwXmitClassifier]
  cases rtwGetStainfo s f.ra with
  | none => exact SameSleep.refl s
  | some k =>
    dsimp only
    split_ifs
    · exact SameSleep.refl s
    · exact SameSleep.refl s
    · exact enqueueServq_sameSleep s k f

theorem rtwHalXmitframeEnqueue_sameSleep (s : XmitPriv) (f : XmitFrame) :
    SameSleep s (rtwHalXmitframeEnqueue s f) := rtwXmitClassifier_sameSleep s f

theorem dequeueFrom_sameSleep {s t : XmitPriv} {ac : Ac} {stas : List ℕ} {f : XmitFrame}
    (h : dequeueFrom s ac stas = some (f, t)) : SameSleep s t := by
  induction stas with
  | nil => cases h
  | cons k stas ih =>
    cases hq : (s.servq k ac).staPending with
    | nil =>
      rw [dequeueFrom, hq] at h
      exact ih h
    | cons g rest =>
      rw [dequeueFrom, hq] at h
      simp only [Option.some.injEq, Prod.mk.injEq] at h
      rw [← h.2]
      split_ifs
      · exact ⟨rfl, rfl, rfl, rfl, rfl⟩
      · exact ⟨rfl, rfl, rfl, rfl, rfl⟩

theorem rtwDequeueXframe_sameSleep {s t : XmitPriv} {inx : List Ac} {f : XmitFrame}
    (h : rtwDequeueXframe s inx = some (f, t)) : SameSleep s t := by
  induction inx with
  | nil => cases h
  | cons ac inx ih =>
    rw [rtwDequeueXframe] at h
    split at h
    · rename_i r hr
      rw [Option.some.inj h] at hr
      exact dequeueFrom_sameSleep hr
    · exact ih h

theorem flushServq_sameSleep (s : XmitPriv) (k : ℕ) (ac : Ac) : SameSleep s (flushServq s k ac) :=
  ⟨rfl, rfl, rfl, rfl, rfl⟩

theorem flushServqs_sameSleep (s : XmitPriv) (k : ℕ) : SameSleep s (flushServqs s k) := by
  have hstep : ∀ {t : XmitPriv} (ac : Ac), SameSleep s t → SameSleep s (flushServq t k ac) := by
    intro t ac ht
    exact ht.trans (flushServq_sameSleep t k ac)
  apply hstep
  apply hstep
  apply hstep
  exact flushServq_sameSleep s k .vo

/-! ## The counters of one station -/

def Sta.Paired (p : Sta) : Prop :=
  ∀ ac, (p.uapsd ac).testBit 1 = (p.uapsd ac).testBit 0

theorem Sta.Paired.triggerEnabled {p : Sta} (h : Sta.Paired p) (f : XmitFrame) :
    p.triggerEnabled f = p.deliveryEnabled f := h (acOf f.priority)

def LenOk (p : Sta) : Prop := p.sleepqLen = p.sleepQ.length

def AcLenOk (p : Sta) : Prop := p.sleepqAcLen = p.sleepQ.countP p.deliveryEnabled

structure Counted (p : Sta) : Prop where
  len : LenOk p
  acLen : AcLenOk p
  wrapped : p.wrapped = false

theorem Sta.deliveryEnabled_congr {p p' : Sta} (h : p'.uapsd = p.uapsd) :
    p'.deliveryEnabled = p.deliveryEnabled := by
  funext f
  simp only [ApXmit.Sta.deliveryEnabled, h]

theorem decLen_lenOk {p : Sta} {kept q : List XmitFrame} {f : XmitFrame} (h : LenOk p)
    (hq : p.sleepQ = kept ++ f :: q) : LenOk (p.setSleepQ (kept ++ q)).decLen := by
  have hlen : p.sleepqLen = (kept ++ q).length + 1 := by
    rw [h, hq]
    simp only [List.length_append, List.length_cons]
    omega
  simp only [LenOk, ApXmit.Sta.decLen, ApXmit.Sta.setSleepQ, hlen, dec32]

theorem countP_middle (d : XmitFrame → Bool) (kept q : List XmitFrame) (f : XmitFrame) :
    (kept ++ f :: q).countP d = (kept ++ q).countP d + if d f then 1 else 0 := by
  rw [List.countP_append, List.countP_append, List.countP_cons, Nat.add_assoc]

theorem decLen_counted {p : Sta} {kept q : List XmitFrame} {f : XmitFrame} (h : Counted p)
    (hq : p.sleepQ = kept ++ f :: q) (hf : p.deliveryEnabled f = false) :
    Counted (p.setSleepQ (kept ++ q)).decLen := by
  have hlen : p.sleepqLen ≠ 0 := by
    rw [h.len, hq, List.length_append, List.length_cons]
    omega
  refine ⟨decLen_lenOk h.len hq, ?_, ?_⟩
  · have hac := h.acLen
    rw [AcLenOk, hq, countP_middle, hf] at hac
    exact hac
  · simp only [ApXmit.Sta.decLen, ApXmit.Sta.setSleepQ, h.wrapped, hlen, decide_false, Bool.or_self]

theorem decAcLen_counted {p : Sta} {kept q : List XmitFrame} {f : XmitFrame} (h : Counted p)
    (hq : p.sleepQ = kept ++ f :: q) (hf : p.deliveryEnabled f = true) :
    Counted (p.setSleepQ (kept ++ q)).decLen.decAcLen := by
  have hlen : p.sleepqLen ≠ 0 := by
    rw [h.len, hq, List.length_append, List.length_cons]
    omega
  have hac : p.sleepqAcLen = (kept ++ q).countP p.deliveryEnabled + 1 := by
    rw [h.acLen, hq, countP_middle, hf, if_pos rfl]
  refine ⟨?_, ?_, ?_⟩
  · exact decLen_lenOk h.len hq
  · simp only [AcLenOk, ApXmit.Sta.decAcLen, ApXmit.Sta.decLen, ApXmit.Sta.setSleepQ, hac, dec32]
    rfl
  · simp only [ApXmit.Sta.decAcLen, ApXmit.Sta.decLen, ApXmit.Sta.setSleepQ, h.wrapped, hlen, hac,
      decide_false, Bool.or_self, Nat.add_eq_zero_iff, Nat.one_ne_zero, and_false]

theorem buffer_len {p : Sta} (h : LenOk p) (f : XmitFrame) : LenOk (p.buffer f) := by
  simp only [LenOk, ApXmit.Sta.buffer, List.length_append, List.length_singleton]
  rw [h]

theorem bufferGroup_len {p : Sta} (h : LenOk p) (f : XmitFrame) : LenOk (p.bufferGroup f) := by
  simp only [LenOk, ApXmit.Sta.bufferGroup, List.length_append, List.length_singleton]
  rw [h]

theorem buffer_acLen {p : Sta} (h : AcLenOk p) (f : XmitFrame) : AcLenOk (p.buffer f) := by
  rw [AcLenOk] at h
  change (if p.deliveryEnabled f then p.sleepqAcLen + 1 else p.sleepqAcLen) =
    (p.sleepQ ++ [f]).countP p.deliveryEnabled
  rw [List.countP_append, List.countP_singleton, ← h]
  split_ifs
  · rfl
  · rfl

theorem buffer_counted {p : Sta} (h : Counted p) (f : XmitFrame) : Counted (p.buffer f) :=
  ⟨buffer_len h.len f, buffer_acLen h.acLen f, h.wrapped⟩

theorem bufferGroup_counted {p : Sta} (h : Counted p) (hp : p.uapsd = fun _ => 0)
    (f : XmitFrame) : Counted (p.bufferGroup f) := by
  refine ⟨bufferGroup_len h.len f, ?_, h.wrapped⟩
  have hac := h.acLen
  rw [AcLenOk] at hac
  have hf : p.deliveryEnabled f = false := by
    simp only [ApXmit.Sta.deliveryEnabled, hp, Nat.zero_testBit]
  change p.sleepqAcLen = (p.sleepQ ++ [f]).countP p.deliveryEnabled
  rw [List.countP_append, List.countP_singleton, ← hac, hf]
  rfl

theorem wakeFrame_counted {p : Sta} {f : XmitFrame} {q : List XmitFrame} (h : Counted p)
    (hpair : Sta.Paired p) (hq : p.sleepQ = f :: q) :
    Counted (wakeFrame (p.setSleepQ q) f).1 := by
  have htrig : (p.setSleepQ q).triggerEnabled f = p.deliveryEnabled f := hpair.triggerEnabled f
  have hq' : p.sleepQ = [] ++ f :: q := hq
  rw [wakeFrame_sta, htrig]
  split_ifs with hf
  · exact decAcLen_counted h hq' hf
  · exact decLen_counted h hq' (by simpa using hf)

/-! ## Loops over a sleep queue -/

structure SameSettings (p p' : Sta) : Prop where
  macAddr : p'.macAddr = p.macAddr
  linked : p'.linked = p.linked
  sleepState : p'.sleepState = p.sleepState
  aid : p'.aid = p.aid
  qosOption : p'.qosOption = p.qosOption
  uapsd : p'.uapsd = p.uapsd
  hasLegacyAc : p'.hasLegacyAc = p.hasLegacyAc

theorem SameSettings.refl (p : Sta) : SameSettings p p := ⟨rfl, rfl, rfl, rfl, rfl, rfl, rfl⟩

theorem SameSettings.trans {p p' p'' : Sta} (h : SameSettings p p') (h' : SameSettings p' p'') :
    SameSettings p p'' :=
  ⟨h'.macAddr.trans h.macAddr, h'.linked.trans h.linked, h'.sleepState.trans h.sleepState,
    h'.aid.trans h.aid, h'.qosOption.trans h.qosOption, h'.uapsd.trans h.uapsd,
    h'.hasLegacyAc.trans h.hasLegacyAc⟩

theorem SameSettings.paired {p p' : Sta} (h : SameSettings p p') (hp : Sta.Paired p) :
    Sta.Paired p' := by
  rw [Sta.Paired, h.uapsd]
  exact hp

theorem wakeFrame_settings (p : Sta) (f : XmitFrame) (q : List XmitFrame) :
    SameSettings p (wakeFrame (p.setSleepQ q) f).1 := by
  rw [wakeFrame_sta]
  split_ifs
  · exact ⟨rfl, rfl, rfl, rfl, rfl, rfl, rfl⟩
  · exact ⟨rfl, rfl, rfl, rfl, rfl, rfl, rfl⟩

theorem wakeFrame_sleepQ (p : Sta) (f : XmitFrame) (q : List XmitFrame) :
    (wakeFrame (p.setSleepQ q) f).1.sleepQ = q := by
  rw [wakeFrame_sta]
  split_ifs
  · rfl
  · rfl

structure OnlySta (s t : XmitPriv) (k : ℕ) : Prop where
  staHash : t.staHash = s.staHash
  freeStaQueue : t.freeStaQueue = s.freeStaQueue
  sta : ∀ j, j ≠ k → t.sta j = s.sta j
  timBitmap : t.timBitmap = s.timBitmap
  staDzBitmap : t.staDzBitmap = s.staDzBitmap

theorem OnlySta.refl (s : XmitPriv) (k : ℕ) : OnlySta s s k :=
  ⟨rfl, rfl, fun _ _ => rfl, rfl, rfl⟩

theorem OnlySta.trans {s t u : XmitPriv} {k : ℕ} (h : OnlySta s t k) (h' : OnlySta t u k) :
    OnlySta s u k :=
  ⟨h'.staHash.trans h.staHash, h'.freeStaQueue.trans h.freeStaQueue,
    fun j hj => (h'.sta j hj).trans (h.sta j hj), h'.timBitmap.trans h.timBitmap,
    h'.staDzBitmap.trans h.staDzBitmap⟩

theorem onlySta_send (s : XmitPriv) (k : ℕ) (p : Sta) (f : XmitFrame) :
    OnlySta s (rtwHalXmitframeEnqueue (s.setSta k p) f) k ∧
      (rtwHalXmitframeEnqueue (s.setSta k p) f).sta k = p := by
  have h := rtwHalXmitframeEnqueue_sameSleep (s.setSta k p) f
  refine ⟨⟨h.staHash, h.freeStaQueue, ?_, h.timBitmap, h.staDzBitmap⟩, ?_⟩
  · intro j hj
    rw [h.sta, XmitPriv.setSta_of_ne s hj]
  · rw [h.sta, XmitPriv.setSta_self]

theorem releaseAll_spec (P : Sta → Prop)
    (hstep : ∀ p f q, P p → p.sleepQ = f :: q → P (wakeFrame (p.setSleepQ q) f).1)
    {s : XmitPriv} {k : ℕ} (hs : P (s.sta k)) {q : List XmitFrame} (hq : (s.sta k).sleepQ = q) :
    P ((releaseAll s k q).sta k) ∧ ((releaseAll s k q).sta k).sleepQ = [] ∧
      OnlySta s (releaseAll s k q) k := by
  induction q generalizing s with
  | nil => exact ⟨hs, hq, OnlySta.refl s k⟩
  | cons f q ih =>
    rw [releaseAll_cons]
    obtain ⟨honly, hsta⟩ := onlySta_send s k (wakeFrame ((s.sta k).setSleepQ q) f).1
      (wakeFrame ((s.sta k).setSleepQ q) f).2
    generalize rtwHalXmitframeEnqueue (s.setSta k (wakeFrame ((s.sta k).setSleepQ q) f).1)
      (wakeFrame ((s.sta k).setSleepQ q) f).2 = u at honly hsta ⊢
    obtain ⟨hP, hnil, hrest⟩ := ih (s := u)
      (by rw [hsta]; exact hstep _ f q hs hq) (by rw [hsta, wakeFrame_sleepQ])
    exact ⟨hP, hnil, honly.trans hrest⟩

theorem releaseGroup_spec (P : Sta → Prop)
    (hstep : ∀ p f q, P p → p.sleepQ = f :: q → P (p.setSleepQ q).decLen)
    {s : XmitPriv} {bmc : ℕ} (hs : P (s.sta bmc)) {q : List XmitFrame}
    (hq : (s.sta bmc).sleepQ = q) :
    P ((releaseGroup s bmc q).sta bmc) ∧ ((releaseGroup s bmc q).sta bmc).sleepQ = [] ∧
      OnlySta s (releaseGroup s bmc q) bmc := by
  induction q generalizing s with
  | nil => exact ⟨hs, hq, OnlySta.refl s bmc⟩
  | cons f q ih =>
    obtain ⟨honly, hsta⟩ := onlySta_send s bmc ((s.sta bmc).setSleepQ q).decLen
      (plainFrame ((s.sta bmc).setSleepQ q) f).2
    rw [releaseGroup_cons]
    generalize rtwHalXmitframeEnqueue (s.setSta bmc ((s.sta bmc).setSleepQ q).decLen)
      (plainFrame ((s.sta bmc).setSleepQ q) f).2 = u at honly hsta ⊢
    obtain ⟨hP, hnil, hrest⟩ := ih (s := u)
      (by rw [hsta]; exact hstep _ f q hs hq) (by rw [hsta]; rfl)
    exact ⟨hP, hnil, honly.trans hrest⟩

/-! ## Service periods -/

/-- The last frame of a service period ends it, and no other does. -/
def EospOnLast (sent : List XmitFrame) : Prop :=
  ∀ init f, sent = init ++ [f] → f.eosp = true ∧ ∀ g ∈ init, g.eosp = false

theorem eospOnLast_nil : EospOnLast [] := by
  intro init f h
  simp at h

theorem EospOnLast.cons {sent : List XmitFrame} (h : EospOnLast sent) {f : XmitFrame}
    (hf : f.eosp = true ↔ sent = []) : EospOnLast (f :: sent) := by
  intro init g hg
  cases init with
  | nil =>
    rw [List.nil_append, List.cons.injEq] at hg
    obtain ⟨rfl, hnil⟩ := hg
    refine ⟨hf.mpr hnil, ?_⟩
    intro g' hg'
    cases hg'
  | cons f' init =>
    rw [List.cons_append, List.cons.injEq] at hg
    obtain ⟨rfl, hsent⟩ := hg
    obtain ⟨hlast, hinit⟩ := h init g hsent
    refine ⟨hlast, ?_⟩
    intro g' hg'
    rcases List.mem_cons.mp hg' with rfl | hg'
    · apply Bool.eq_false_iff.mpr
      intro heosp
      rw [hf.mp heosp] at hsent
      simp at hsent
    · exact hinit g' hg'

structure OnlyTim (s t : XmitPriv) (k : ℕ) : Prop where
  staHash : t.staHash = s.staHash
  freeStaQueue : t.freeStaQueue = s.freeStaQueue
  sta : ∀ j, j ≠ k → t.sta j = s.sta j

theorem OnlySta.onlyTim {s t : XmitPriv} {k : ℕ} (h : OnlySta s t k) : OnlyTim s t k :=
  ⟨h.staHash, h.freeStaQueue, h.sta⟩

theorem OnlyTim.trans {s t u : XmitPriv} {k : ℕ} (h : OnlyTim s t k) (h' : OnlyTim t u k) :
    OnlyTim s u k :=
  ⟨h'.staHash.trans h.staHash, h'.freeStaQueue.trans h.freeStaQueue,
    fun j hj => (h'.sta j hj).trans (h.sta j hj)⟩

theorem deliverFrame_sta (s : XmitPriv) (k : ℕ) (rest : List XmitFrame) (f : XmitFrame) :
    OnlyTim s (deliverFrame s k rest f).1 k ∧
      (deliverFrame s k rest f).1.sta k = ((s.sta k).setSleepQ rest).decLen.decAcLen := by
  obtain ⟨honly, hsta⟩ := onlySta_send s k (deliveredFrame ((s.sta k).setSleepQ rest) f).1
    (deliveredFrame ((s.sta k).setSleepQ rest) f).2
  simp only [deliverFrame]
  split_ifs
  · exact ⟨⟨honly.staHash, honly.freeStaQueue, honly.sta⟩, hsta⟩
  · exact ⟨honly.onlyTim, hsta⟩

theorem deliverFrame_eosp (s : XmitPriv) (k : ℕ) (rest : List XmitFrame) (f : XmitFrame) :
    (deliverFrame s k rest f).2.eosp = true ↔
      ((s.sta k).setSleepQ rest).decLen.decAcLen.sleepqAcLen = 0 := by
  change decide (¬ 0 < ((s.sta k).setSleepQ rest).decLen.decAcLen.sleepqAcLen) = true ↔ _
  rw [decide_eq_true_iff, Nat.not_lt, Nat.le_zero]

structure Delivered (s t : XmitPriv) (k : ℕ) (q sent : List XmitFrame) : Prop where
  only : OnlyTim s t k
  settings : SameSettings (s.sta k) (t.sta k)
  counted : Counted (t.sta k)
  eosp : EospOnLast sent
  length : sent.length = q.countP (s.sta k).deliveryEnabled

theorem deliverFrames_delivered {s : XmitPriv} {k : ℕ} {kept q : List XmitFrame}
    (hs : Counted (s.sta k)) (hpair : Sta.Paired (s.sta k)) (hq : (s.sta k).sleepQ = kept ++ q)
    (hkept : ∀ g ∈ kept, (s.sta k).deliveryEnabled g = false) :
    Delivered s (deliverFrames s k kept q).1 k q (deliverFrames s k kept q).2 := by
  induction q generalizing s kept with
  | nil =>
    exact ⟨⟨rfl, rfl, fun _ _ => rfl⟩, SameSettings.refl _, hs, eospOnLast_nil, rfl⟩
  | cons f q ih =>
    rw [deliverFrames, hpair.triggerEnabled]
    split_ifs with hf
    · obtain ⟨honly, hsta⟩ := deliverFrame_sta s k (kept ++ q) f
      have heosp := deliverFrame_eosp s k (kept ++ q) f
      have hcount := decAcLen_counted hs hq hf
      have hset : SameSettings (s.sta k) ((s.sta k).setSleepQ (kept ++ q)).decLen.decAcLen :=
        ⟨rfl, rfl, rfl, rfl, rfl, rfl, rfl⟩
      -- With `kept` undeliverable, what counts after this frame is what `q` still holds.
      have hac : ((s.sta k).setSleepQ (kept ++ q)).decLen.decAcLen.sleepqAcLen =
          q.countP (s.sta k).deliveryEnabled := by
        rw [hcount.acLen, Sta.deliveryEnabled_congr hset.uapsd]
        change (kept ++ q).countP (s.sta k).deliveryEnabled = _
        rw [List.countP_append, List.countP_eq_zero.mpr (by simpa using hkept), Nat.zero_add]
      rw [hac] at heosp
      rw [← hsta] at hcount hset
      simp only
      generalize (deliverFrame s k (kept ++ q) f).1 = u at honly hsta hcount hset ⊢
      have hdel : (u.sta k).deliveryEnabled = (s.sta k).deliveryEnabled :=
        Sta.deliveryEnabled_congr hset.uapsd
      have hrest := @ih u kept hcount (hset.paired hpair) (by rw [hsta]; rfl)
        (by rw [hdel]; exact hkept)
      have hlen := hrest.length
      rw [hdel] at hlen
      refine ⟨honly.trans hrest.only, hset.trans hrest.settings, hrest.counted, ?_, ?_⟩
      · apply hrest.eosp.cons
        rw [heosp, ← hlen, List.length_eq_zero_iff]
      · rw [List.length_cons, hlen, List.countP_cons, if_pos hf]
    · have hkept' : ∀ g ∈ kept ++ [f], (s.sta k).deliveryEnabled g = false := by
        intro g hg
        rcases List.mem_append.mp hg with hg | hg
        · exact hkept g hg
        · rw [List.mem_singleton.mp hg]
          simpa using hf
      have hrest := @ih s (kept ++ [f]) hs hpair (by simpa using hq) hkept'
      refine ⟨hrest.only, hrest.settings, hrest.counted, hrest.eosp, ?_⟩
      rw [hrest.length, List.countP_cons, if_neg hf, Nat.add_zero]

/-! ## Every station -/

structure Ready (p : Sta) : Prop where
  counted : Counted p
  paired : Sta.Paired p
  broadcast : p.macAddr = bcAddr → p.uapsd = fun _ => 0

theorem Ready.of_settings {p p' : Sta} (hp : Ready p) (h : SameSettings p p')
    (hcount : Counted p') : Ready p' := by
  refine ⟨hcount, h.paired hp.paired, ?_⟩
  rw [h.macAddr, h.uapsd]
  exact hp.broadcast

theorem Ready.of_flags {p p' : Sta} (hp : Ready p) (hmac : p'.macAddr = p.macAddr)
    (huapsd : p'.uapsd = p.uapsd) (hq : p'.sleepQ = p.sleepQ)
    (hlen : p'.sleepqLen = p.sleepqLen) (hac : p'.sleepqAcLen = p.sleepqAcLen)
    (hwrap : p'.wrapped = p.wrapped) : Ready p' := by
  refine ⟨⟨?_, ?_, ?_⟩, ?_, ?_⟩
  · rw [LenOk, hlen, hq]
    exact hp.counted.len
  · rw [AcLenOk, hac, hq, Sta.deliveryEnabled_congr huapsd]
    exact hp.counted.acLen
  · rw [hwrap]
    exact hp.counted.wrapped
  · rw [Sta.Paired, huapsd]
    exact hp.paired
  · rw [hmac, huapsd]
    exact hp.broadcast

theorem paired_of_zero {p : Sta} (h : p.uapsd = fun _ => 0) : Sta.Paired p := by
  intro ac
  simp only [h, Nat.zero_testBit]

theorem ready_fresh (hwaddr : MacAddr) : Ready { macAddr := hwaddr } :=
  ⟨⟨rfl, rfl, rfl⟩, paired_of_zero rfl, fun _ => rfl⟩

theorem uapsd_paired (qosInfo i : ℕ) :
    (StaInfo.uapsd qosInfo i).testBit 1 = (StaInfo.uapsd qosInfo i).testBit 0 := by
  rw [StaInfo.uapsd]
  split_ifs
  · rfl
  · rfl

theorem rtwApParseStaWmmIe_paired (p : Sta) (wmm : Option ℕ) :
    Sta.Paired (rtwApParseStaWmmIe p wmm) := by
  cases wmm with
  | none => exact paired_of_zero rfl
  | some qosInfo =>
    intro ac
    cases ac <;> exact uapsd_paired qosInfo _

def AllReady (s : XmitPriv) : Prop := ∀ j, Ready (s.sta j)

theorem AllReady.setSta {s : XmitPriv} (hs : AllReady s) {k : ℕ} {p : Sta} (hp : Ready p) :
    AllReady (s.setSta k p) := by
  intro j
  by_cases hj : j = k
  · subst hj
    rw [XmitPriv.setSta_self]
    exact hp
  · rw [XmitPriv.setSta_of_ne s hj]
    exact hs j

theorem AllReady.of_sta {s t : XmitPriv} (hs : AllReady s) (h : t.sta = s.sta) : AllReady t := by
  intro j
  rw [h]
  exact hs j

theorem AllReady.of_only {s t : XmitPriv} (hs : AllReady s) {k : ℕ}
    (h : ∀ j, j ≠ k → t.sta j = s.sta j) (hk : Ready (t.sta k)) : AllReady t := by
  intro j
  by_cases hj : j = k
  · rw [hj]
    exact hk
  · rw [h j hj]
    exact hs j

theorem xmitframeEnqueueForSleepingSta_ready {s : XmitPriv} (hs : AllReady s) (f : XmitFrame) :
    AllReady (xmitframeEnqueueForSleepingSta s f).1 := by
  simp only [xmitframeEnqueueForSleepingSta]
  cases hget : rtwGetStainfo s f.ra with
  | none => exact hs
  | some k =>
    have hmac := rtwGetStainfo_macAddr hget
    have hk := hs k
    dsimp only
    split_ifs with _ _ _ hmc _ _ hann
    · exact hs
    · exact hs
    · exact hs
    · rw [if_pos hmc] at hmac
      have hcount := bufferGroup_counted hk.counted (hk.broadcast hmac) f
      exact hs.setSta (hk.of_settings ⟨rfl, rfl, rfl, rfl, rfl, rfl, rfl⟩ hcount)
    · exact hs
    · have hcount := buffer_counted hk.counted f
      exact hs.setSta (hk.of_settings ⟨rfl, rfl, rfl, rfl, rfl, rfl, rfl⟩ hcount)
    · have hcount := buffer_counted hk.counted f
      exact hs.setSta (hk.of_settings ⟨rfl, rfl, rfl, rfl, rfl, rfl, rfl⟩ hcount)
    · exact hs

theorem framesToSleepingQueue_ready {s : XmitPriv} (hs : AllReady s) (k : ℕ)
    (q : List XmitFrame) : AllReady (framesToSleepingQueue s k q).1 := by
  induction q generalizing s with
  | nil => exact hs
  | cons f q ih =>
    simp only [framesToSleepingQueue]
    have henq := xmitframeEnqueueForSleepingSta_ready hs { f with triggered := false }
    split_ifs
    · exact ih henq
    · exact ih henq

theorem stopServqs_ready {s : XmitPriv} (hs : AllReady s) (k : ℕ) : AllReady (stopServqs s k) := by
  have hstep : ∀ {t : XmitPriv} (ac : Ac), AllReady t → AllReady (stopServq t k ac) := by
    intro t ac ht
    exact framesToSleepingQueue_ready ht k (t.servq k ac).staPending
  apply hstep
  apply hstep
  apply hstep
  exact hstep .vo hs

theorem stopStaXmit_ready {s : XmitPriv} (hs : AllReady s) (k bmc : ℕ) :
    AllReady (stopStaXmit s k bmc) := by
  simp only [stopStaXmit]
  apply stopServqs_ready
  apply stopServqs_ready
  have hsleep : AllReady (s.setSta k ((s.sta k).setSleep true)) :=
    hs.setSta ((hs k).of_flags rfl rfl rfl rfl rfl rfl)
  exact hsleep.of_sta rfl

theorem awaken_ready {s : XmitPriv} (hs : AllReady s) (k : ℕ) : AllReady (awaken s k) := by
  simp only [awaken]
  split_ifs
  · exact hs.setSta ((hs k).of_flags rfl rfl rfl rfl rfl rfl)
  · exact hs

theorem releaseAll_ready {s : XmitPriv} (hs : AllReady s) (k : ℕ) :
    AllReady (releaseAll s k (s.sta k).sleepQ) := by
  obtain ⟨hready, -, honly⟩ := releaseAll_spec Ready (fun p f q hp hq =>
    hp.of_settings (wakeFrame_settings p f q) (wakeFrame_counted hp.counted hp.paired hq))
    (hs k) rfl
  exact hs.of_only honly.sta hready

theorem decLen_settings (p : Sta) (q : List XmitFrame) :
    SameSettings p (p.setSleepQ q).decLen := ⟨rfl, rfl, rfl, rfl, rfl, rfl, rfl⟩

theorem decLen_group {p : Sta} (hp : Ready p) (hmac : p.macAddr = bcAddr) {f : XmitFrame}
    {q : List XmitFrame} (hq : p.sleepQ = f :: q) : Ready (p.setSleepQ q).decLen := by
  have hf : p.deliveryEnabled f = false := by
    simp only [ApXmit.Sta.deliveryEnabled, hp.broadcast hmac, Nat.zero_testBit]
  have hq' : p.sleepQ = [] ++ f :: q := hq
  exact hp.of_settings (decLen_settings p q) (decLen_counted hp.counted hq' hf)

theorem releaseGroup_ready {s : XmitPriv} (hs : AllReady s) {bmc : ℕ}
    (hmac : (s.sta bmc).macAddr = bcAddr) :
    AllReady (releaseGroup s bmc (s.sta bmc).sleepQ) := by
  obtain ⟨hready, -, honly⟩ := releaseGroup_spec (fun p => Ready p ∧ p.macAddr = bcAddr)
    (fun p f q hp hq => ⟨decLen_group hp.1 hp.2 hq, hp.2⟩) ⟨hs bmc, hmac⟩ rfl
  exact hs.of_only honly.sta hready.1

theorem rtwGetBcmcStainfo_macAddr {s : XmitPriv} {bmc : ℕ} (h : rtwGetBcmcStainfo s = some bmc) :
    (s.sta bmc).macAddr = bcAddr := by
  rw [rtwGetStainfo_macAddr h, isMcast_bcAddr, if_pos rfl]

theorem wakeupStaToXmit_ready {s : XmitPriv} (hs : AllReady s) (k : ℕ) :
    AllReady (wakeupStaToXmit s k) := by
  have hawake : AllReady (awaken (releaseAll s k (s.sta k).sleepQ) k) :=
    awaken_ready (releaseAll_ready hs k) k
  simp only [wakeupStaToXmit]
  cases hbmc : rtwGetBcmcStainfo (awaken (releaseAll s k (s.sta k).sleepQ) k) with
  | none => exact hawake
  | some bmc =>
    have hgroup := releaseGroup_ready hawake (rtwGetBcmcStainfo_macAddr hbmc)
    dsimp only
    split_ifs
    · exact hawake
    · exact hgroup.of_sta rfl
    · exact hgroup

theorem xmitDeliveryEnabledFrames_delivered {s : XmitPriv} (hs : AllReady s) (k : ℕ) :
    Delivered s (xmitDeliveryEnabledFrames s k).1 k (s.sta k).sleepQ
      (xmitDeliveryEnabledFrames s k).2 := by
  apply deliverFrames_delivered (hs k).counted (hs k).paired
  · rw [List.nil_append]
  · intro g hg
    cases hg

theorem processWmmpsData_ready {s : XmitPriv} (hs : AllReady s) (k priority : ℕ) :
    AllReady (processWmmpsData s k priority).1 ∧
      EospOnLast (processWmmpsData s k priority).2 := by
  have hsent := xmitDeliveryEnabledFrames_delivered hs k
  simp only [processWmmpsData]
  split_ifs
  · exact ⟨hs, eospOnLast_nil⟩
  · exact ⟨hs, eospOnLast_nil⟩
  · refine ⟨hs.of_only hsent.only.sta ?_, hsent.eosp⟩
    exact (hs k).of_settings hsent.settings hsent.counted
  · exact ⟨hs, eospOnLast_nil⟩

theorem pollOne_sta (s : XmitPriv) (k : ℕ) (rest : List XmitFrame) (f : XmitFrame) :
    OnlyTim s (pollOne s k rest f) k ∧
      (pollOne s k rest f).sta k = ((s.sta k).setSleepQ rest).decLen := by
  obtain ⟨honly, hsta⟩ := onlySta_send s k (plainFrame ((s.sta k).setSleepQ rest) f).1
    (plainFrame ((s.sta k).setSleepQ rest) f).2
  simp only [pollOne]
  split_ifs
  · exact ⟨⟨honly.staHash, honly.freeStaQueue, honly.sta⟩, hsta⟩
  · exact ⟨honly.onlyTim, hsta⟩

def SameClass (p : Sta) (wmm : Option ℕ) : Prop :=
  p.sleepQ = [] ∨ ∀ ac, (rtwApParseStaWmmIe p wmm).uapsd ac = p.uapsd ac

instance (p : Sta) (wmm : Option ℕ) : Decidable (SameClass p wmm) :=
  inferInstanceAs (Decidable (_ ∨ _))

/-- A PS-Poll is not answered with a delivery enabled frame, and the delivery
enabled categories stay as they are while frames are buffered. -/
def PollOk (s : XmitPriv) : Event → Prop
  | .psPoll ta aid priority => ∀ k ∈ rtwGetStainfo s ta, psPollServed s k aid priority = true →
      ∀ f ∈ (s.sta k).sleepQ.head?, (s.sta k).deliveryEnabled f = false
  | .assoc k _ wmm => SameClass (s.sta k) wmm
  | _ => True

instance (s : XmitPriv) : ∀ e, Decidable (PollOk s e)
  | .psPoll _ _ _ => inferInstanceAs (Decidable (∀ _ ∈ _, _ → _))
  | .assoc _ _ _ => inferInstanceAs (Decidable (SameClass _ _))
  | .enqueue _ | .classify _ | .dequeue _ | .sleep _ | .wakeUp _ | .trigger _ _ | .alloc _
  | .updateBmcSta | .apFreeSta _ | .free _ _ => inferInstanceAs (Decidable True)

theorem psPoll_ready {s : XmitPriv} (hs : AllReady s) (k aid priority : ℕ)
    (hok : psPollServed s k aid priority = true →
      ∀ f ∈ (s.sta k).sleepQ.head?, (s.sta k).deliveryEnabled f = false) :
    AllReady (psPoll s k aid priority) := by
  simp only [psPoll]
  split_ifs with hserved
  · cases hq : (s.sta k).sleepQ with
    | nil =>
      have hlen : (s.sta k).sleepqLen = 0 := by
        rw [(hs k).counted.len, hq, List.length_nil]
      simp only [pollNone]
      split_ifs
      · exact hs.setSta ((hs k).of_flags rfl rfl rfl hlen.symm rfl rfl)
      · exact hs
    | cons f q =>
      have hf : (s.sta k).deliveryEnabled f = false := by
        apply hok hserved f
        rw [hq]
        rfl
      obtain ⟨honly, hsta⟩ := pollOne_sta s k q f
      apply hs.of_only honly.sta
      have hq' : (s.sta k).sleepQ = [] ++ f :: q := hq
      rw [hsta]
      exact (hs k).of_settings (decLen_settings _ q) (decLen_counted (hs k).counted hq' hf)
  · exact hs

theorem assocSta_ready {s : XmitPriv} (hs : AllReady s) (k : ℕ) (aid : Fin (maxAid + 1))
    {wmm : Option ℕ} (hok : SameClass (s.sta k) wmm) : AllReady (assocSta s k aid wmm) := by
  have hk := (hs k).counted
  simp only [assocSta]
  split_ifs with hrefused
  · exact hs
  · apply hs.setSta
    have hfields : ∀ p : Sta, (rtwApParseStaWmmIe p wmm).sleepQ = p.sleepQ ∧
        (rtwApParseStaWmmIe p wmm).sleepqLen = p.sleepqLen ∧
        (rtwApParseStaWmmIe p wmm).sleepqAcLen = p.sleepqAcLen ∧
        (rtwApParseStaWmmIe p wmm).wrapped = p.wrapped ∧
        (rtwApParseStaWmmIe p wmm).macAddr = p.macAddr := by
      intro p
      cases wmm <;> exact ⟨rfl, rfl, rfl, rfl, rfl⟩
    obtain ⟨hq, hlen, hac, hwrap, hmac⟩ := hfields (s.sta k)
    refine ⟨⟨?_, ?_, ?_⟩, rtwApParseStaWmmIe_paired (s.sta k) wmm, ?_⟩
    · change (rtwApParseStaWmmIe (s.sta k) wmm).sleepqLen =
        (rtwApParseStaWmmIe (s.sta k) wmm).sleepQ.length
      rw [hlen, hq]
      exact hk.len
    · change (rtwApParseStaWmmIe (s.sta k) wmm).sleepqAcLen =
        (rtwApParseStaWmmIe (s.sta k) wmm).sleepQ.countP
          (rtwApParseStaWmmIe (s.sta k) wmm).deliveryEnabled
      rw [hac, hq, hk.acLen]
      rcases hok with hnil | hsame
      · rw [hnil, List.countP_nil, List.countP_nil]
      · rw [Sta.deliveryEnabled_congr (funext hsame)]
    · exact hwrap.trans hk.wrapped
    · intro hbc
      exact absurd (Or.inl (hmac.symm.trans hbc)) hrefused

theorem rtwFreeStainfo_ready {s : XmitPriv} (hs : AllReady s) (k : ℕ) (ownsAid : Bool) :
    AllReady (rtwFreeStainfo s k ownsAid) := by
  have hflush : AllReady (flushServqs s k) := hs.of_sta (flushServqs_sta s k)
  have hfreed : Ready ((s.sta k).freed ownsAid) :=
    ⟨⟨rfl, rfl, (hs k).counted.wrapped⟩, paired_of_zero rfl, fun _ => rfl⟩
  simp only [rtwFreeStainfo]
  exact hflush.setSta hfreed

theorem rtwAllocStainfo_ready {s : XmitPriv} (hs : AllReady s) (hwaddr : MacAddr) :
    AllReady (rtwAllocStainfo s hwaddr) := by
  simp only [rtwAllocStainfo]
  split
  · exact hs
  · exact hs.setSta (ready_fresh hwaddr)

/-! ## Runs -/

theorem Event.apply_ready {s : XmitPriv} (hs : AllReady s) {e : Event} (hok : PollOk s e) :
    AllReady (e.apply s) := by
  cases e with
  | enqueue f => exact xmitframeEnqueueForSleepingSta_ready hs f
  | classify f => exact hs.of_sta (rtwXmitClassifier_sameSleep s f).sta
  | dequeue inx =>
    simp only [Event.apply]
    cases hd : rtwDequeueXframe s inx with
    | none => exact hs
    | some r => exact hs.of_sta (rtwDequeueXframe_sameSleep hd).sta
  | sleep k =>
    simp only [Event.apply, onSta]
    split_ifs
    · cases rtwGetBcmcStainfo s with
      | none => exact hs
      | some bmc => exact stopStaXmit_ready hs k bmc
    · exact hs
  | wakeUp k =>
    simp only [Event.apply, onSta]
    split_ifs
    · exact wakeupStaToXmit_ready hs k
    · exact hs
  | psPoll ta aid priority =>
    simp only [Event.apply]
    cases hget : rtwGetStainfo s ta with
    | none => exact hs
    | some k => exact psPoll_ready hs k aid priority (hok k hget)
  | trigger ta priority =>
    simp only [Event.apply]
    cases rtwGetStainfo s ta with
    | none => exact hs
    | some k => exact (processWmmpsData_ready hs k priority).1
  | alloc hwaddr =>
    simp only [Event.apply]
    split_ifs
    · exact rtwAllocStainfo_ready hs hwaddr
    · exact hs
  | assoc k aid wmm =>
    simp only [Event.apply, onSta]
    split_ifs
    · exact assocSta_ready hs k aid hok
    · exact hs
  | updateBmcSta =>
    simp only [Event.apply]
    cases rtwGetBcmcStainfo s with
    | none => exact hs
    | some k => exact hs.setSta ((hs k).of_flags rfl rfl rfl rfl rfl rfl)
  | apFreeSta k =>
    simp only [Event.apply, onSta]
    split_ifs
    · exact hs.setSta ((hs k).of_flags rfl rfl rfl rfl rfl rfl)
    · exact hs
  | free k ownsAid =>
    simp only [Event.apply, onSta]
    split_ifs
    · exact rtwFreeStainfo_ready hs k ownsAid
    · exact hs

/-- The counters of every station, and the service period a trigger frame starts now. -/
structure Accounted (s : XmitPriv) : Prop where
  len : ∀ k, (s.sta k).sleepqLen = (s.sta k).sleepQ.length
  acLen : ∀ k, (s.sta k).sleepqAcLen = (s.sta k).sleepQ.countP (s.sta k).deliveryEnabled
  wrapped : ∀ k, (s.sta k).wrapped = false
  eosp : ∀ k priority, EospOnLast (processWmmpsData s k priority).2

theorem run_accounted (numSta : ℕ) {es : List Event}
    (hes : Along Event.apply PollOk (initXmitPriv numSta) es) :
    Accounted (ApXmit.run (initXmitPriv numSta) es) := by
  have hinit : AllReady (initXmitPriv numSta) := fun _ => ready_fresh _
  have hs : AllReady (ApXmit.run (initXmitPriv numSta) es) :=
    run_spec PollOk AllReady (fun s e hs he => Event.apply_ready hs he) hinit hes
  exact ⟨fun k => (hs k).counted.len, fun k => (hs k).counted.acLen,
    fun k => (hs k).counted.wrapped, fun k priority => (processWmmpsData_ready hs k priority).2⟩

def voiceBuffered : List Event :=
  [.alloc bcAddr, .updateBmcSta, .alloc firstAddr, .assoc 1 1 (some 1), .sleep 1,
    .enqueue (frameTo 1 firstAddr 6), .enqueue (frameTo 1 firstAddr 0)]

theorem run_accounted_trigger : Accounted (ApXmit.run (initXmitPriv 32)
    (voiceBuffered ++ [.trigger firstAddr 6, .psPoll firstAddr 1 0, .wakeUp 1])) :=
  run_accounted 32 (by decide +kernel)

/-- The poll takes the voice frame, and `sleepq_ac_len` still counts it. -/
theorem psPoll_miscounts :
    ¬ Accounted (ApXmit.run (initXmitPriv 32) (voiceBuffered ++ [.psPoll firstAddr 1 0])) := by
  intro h
  exact absurd (h.acLen 1) (by decide +kernel)

/-- The service period after such a poll has no frame with EOSP. -/
example : ((processWmmpsData (ApXmit.run (initXmitPriv 32) (voiceBuffered ++
    ([.psPoll firstAddr 1 0, .enqueue (frameTo 1 firstAddr 6)] : List Event))) 1 6).2.map
      XmitFrame.eosp) = [false] := by decide +kernel

end Rtl8189.PowerSave
