import Rtl8189.PowerSave

/-!
# The TIM tells the truth

A station whose categories are not all delivery enabled is told of its other
frames, and one whose categories all are of any frame; the bit of AID 0 stands
for the group frames. Every bit belongs to the station that holds its AID, the
broadcast entry among them. Two paths do not keep to that: a PS-Poll that takes
the last announced frame leaves the bit set as long as other frames are
buffered, and a station without an AID clears the bit of the group frames.
-/
namespace Rtl8189.TimBitmap

open ApXmit EventRun PowerSave

def Holds (p : Sta) : Prop := p.aid ≠ 0 ∨ p.macAddr = bcAddr

instance (p : Sta) : Decidable (Holds p) := inferInstanceAs (Decidable (_ ∨ _))

def Owes (p : Sta) : Prop :=
  if p.hasLegacyAc = true then ∃ f ∈ p.sleepQ, p.deliveryEnabled f = false else p.sleepQ ≠ []

def AllDelivery (p : Sta) : Prop := ∀ ac, (p.uapsd ac).testBit 0 = true

structure Settled (p : Sta) : Prop where
  len : LenOk p
  paired : Sta.Paired p
  linked : p.linked = true → Holds p
  unheld : ¬ Holds p → p.sleepQ = []
  broadcast : p.macAddr = bcAddr →
    p.aid = 0 ∧ (p.uapsd = fun _ => 0) ∧ p.hasLegacyAc = false ∧ p.qosOption = false
  classes : p.aid ≠ 0 → (p.hasLegacyAc = false ↔ AllDelivery p)
  acLen : p.aid ≠ 0 → p.hasLegacyAc = false → AcLenOk p

structure Told (s : XmitPriv) : Prop where
  hash_nodup : s.staHash.Nodup
  free_nodup : s.freeStaQueue.Nodup
  free_not_mem : ∀ k ∈ s.freeStaQueue, k ∉ s.staHash
  settled : ∀ k ∈ s.staHash, Settled (s.sta k)
  distinct : ∀ j ∈ s.staHash, ∀ k ∈ s.staHash, Holds (s.sta j) → Holds (s.sta k) →
    (s.sta j).aid = (s.sta k).aid → j = k
  announced : ∀ k ∈ s.staHash, Holds (s.sta k) →
    (s.timBitmap (s.sta k).aid = true ↔ Owes (s.sta k))
  owned : ∀ id, s.timBitmap id = true →
    ∃ k ∈ s.staHash, Holds (s.sta k) ∧ ((s.sta k).aid : ℕ) = id

theorem Told.unheld_zero {s : XmitPriv} {k : ℕ} (h : ¬ Holds (s.sta k)) : (s.sta k).aid = 0 :=
  not_not.mp (not_or.mp h).1

theorem Told.holds {s : XmitPriv} (hs : Told s) {k : ℕ} (hk : k ∈ s.staHash)
    (hq : (s.sta k).sleepQ ≠ []) : Holds (s.sta k) := by
  by_contra h
  exact hq ((hs.settled k hk).unheld h)

/-! ## A change of one station -/

theorem Told.update {s t : XmitPriv} (hs : Told s) {k : ℕ} (hk : k ∈ s.staHash) {p : Sta}
    (honly : OnlyTim s t k) (hsta : t.sta k = p) (hmac : p.macAddr = (s.sta k).macAddr)
    (haid : p.aid = (s.sta k).aid) (hsettled : Settled p)
    (hrest : ∀ id, id ≠ ((s.sta k).aid : ℕ) → t.timBitmap id = s.timBitmap id)
    (hown : Holds (s.sta k) → (t.timBitmap (s.sta k).aid = true ↔ Owes p))
    (hother : ¬ Holds (s.sta k) → t.timBitmap = s.timBitmap) : Told t := by
  subst hsta
  have hholds : ∀ j, Holds (t.sta j) ↔ Holds (s.sta j) := by
    intro j
    by_cases hj : j = k
    · rw [hj, Holds, Holds, hmac, haid]
    · rw [honly.sta j hj]
  have haids : ∀ j, (t.sta j).aid = (s.sta j).aid := by
    intro j
    by_cases hj : j = k
    · rw [hj, haid]
    · rw [honly.sta j hj]
  refine ⟨?_, ?_, ?_, ?_, ?_, ?_, ?_⟩
  · rw [honly.staHash]
    exact hs.hash_nodup
  · rw [honly.freeStaQueue]
    exact hs.free_nodup
  · rw [honly.staHash, honly.freeStaQueue]
    exact hs.free_not_mem
  · rw [honly.staHash]
    intro j hj
    by_cases hjk : j = k
    · rw [hjk]
      exact hsettled
    · rw [honly.sta j hjk]
      exact hs.settled j hj
  · rw [honly.staHash]
    intro i hi j hj hhi hhj haij
    rw [hholds] at hhi hhj
    rw [haids, haids] at haij
    exact hs.distinct i hi j hj hhi hhj haij
  · rw [honly.staHash]
    intro j hj hhj
    rw [hholds] at hhj
    by_cases hjk : j = k
    · subst hjk
      rw [haid]
      exact hown hhj
    · have hbit : t.timBitmap (s.sta j).aid = s.timBitmap (s.sta j).aid := by
        by_cases hhk : Holds (s.sta k)
        · apply hrest
          intro heq
          exact hjk (hs.distinct j hj k hk hhj hhk (Fin.ext heq))
        · rw [hother hhk]
      rw [honly.sta j hjk, hbit]
      exact hs.announced j hj hhj
  · intro id hid
    rw [honly.staHash]
    by_cases hown' : Holds (s.sta k) ∧ id = ((s.sta k).aid : ℕ)
    · exact ⟨k, hk, (hholds k).mpr hown'.1, by rw [haid]; exact hown'.2.symm⟩
    · have hbit : s.timBitmap id = true := by
        by_cases hhk : Holds (s.sta k)
        · rw [← hrest id (fun heq => hown' ⟨hhk, heq⟩)]
          exact hid
        · rw [← hother hhk]
          exact hid
      obtain ⟨j, hj, hhj, haj⟩ := hs.owned id hbit
      exact ⟨j, hj, (hholds j).mpr hhj, by rw [haids]; exact haj⟩

theorem Told.of_onlySta {s t : XmitPriv} (hs : Told s) {k : ℕ} (hk : k ∈ s.staHash) {p : Sta}
    (honly : OnlySta s t k) (hsta : t.sta k = p) (hmac : p.macAddr = (s.sta k).macAddr)
    (haid : p.aid = (s.sta k).aid) (hsettled : Settled p)
    (howes : Owes p ↔ Owes (s.sta k)) : Told t := by
  refine hs.update hk honly.onlyTim hsta hmac haid hsettled ?_ ?_ ?_
  · intro id _
    rw [honly.timBitmap]
  · intro hhk
    rw [honly.timBitmap, howes]
    exact hs.announced k hk hhk
  · intro _
    exact honly.timBitmap

theorem Told.of_same {s t : XmitPriv} (hs : Told s) (hhash : t.staHash = s.staHash)
    (hfree : t.freeStaQueue = s.freeStaQueue) (hsta : t.sta = s.sta)
    (htim : t.timBitmap = s.timBitmap) : Told t := by
  refine ⟨?_, ?_, ?_, ?_, ?_, ?_, ?_⟩
  · rw [hhash]
    exact hs.hash_nodup
  · rw [hfree]
    exact hs.free_nodup
  · rw [hhash, hfree]
    exact hs.free_not_mem
  · rw [hhash, hsta]
    exact hs.settled
  · rw [hhash, hsta]
    exact hs.distinct
  · rw [hhash, hsta, htim]
    exact hs.announced
  · rw [hhash, hsta, htim]
    exact hs.owned

theorem Told.of_sameSleep {s t : XmitPriv} (hs : Told s) (h : SameSleep s t) : Told t :=
  hs.of_same h.staHash h.freeStaQueue h.sta h.timBitmap

theorem owes_congr {p p' : Sta} (hq : p'.sleepQ = p.sleepQ) (huapsd : p'.uapsd = p.uapsd)
    (hlegacy : p'.hasLegacyAc = p.hasLegacyAc) : Owes p' ↔ Owes p := by
  rw [Owes, Owes, hq, hlegacy, Sta.deliveryEnabled_congr huapsd]

theorem Settled.of_settings {p p' : Sta} (h : Settled p) (hset : SameSettings p p')
    (hlen : LenOk p') (hunheld : ¬ Holds p → p'.sleepQ = [])
    (hac : p.aid ≠ 0 → p.hasLegacyAc = false → AcLenOk p') : Settled p' := by
  have hholds : Holds p' ↔ Holds p := by
    rw [Holds, Holds, hset.aid, hset.macAddr]
  refine ⟨hlen, hset.paired h.paired, ?_, ?_, ?_, ?_, ?_⟩
  · rw [hset.linked, hholds]
    exact h.linked
  · rw [hholds]
    exact hunheld
  · rw [hset.macAddr, hset.aid, hset.uapsd, hset.hasLegacyAc, hset.qosOption]
    exact h.broadcast
  · rw [hset.aid, hset.hasLegacyAc, AllDelivery, hset.uapsd]
    exact h.classes
  · rw [hset.aid, hset.hasLegacyAc]
    exact hac

theorem Settled.of_flags {p p' : Sta} (h : Settled p) (hmac : p'.macAddr = p.macAddr)
    (haid : p'.aid = p.aid) (hqos : p'.qosOption = p.qosOption) (huapsd : p'.uapsd = p.uapsd)
    (hlegacy : p'.hasLegacyAc = p.hasLegacyAc) (hq : p'.sleepQ = p.sleepQ)
    (hlen : p'.sleepqLen = p.sleepqLen) (hac : p'.sleepqAcLen = p.sleepqAcLen)
    (hlinked : p'.linked = true → Holds p') : Settled p' := by
  have hholds : Holds p' ↔ Holds p := by
    rw [Holds, Holds, haid, hmac]
  refine ⟨?_, ?_, hlinked, ?_, ?_, ?_, ?_⟩
  · rw [LenOk, hlen, hq]
    exact h.len
  · rw [Sta.Paired, huapsd]
    exact h.paired
  · rw [hholds, hq]
    exact h.unheld
  · rw [hmac, haid, huapsd, hlegacy, hqos]
    exact h.broadcast
  · rw [haid, hlegacy, AllDelivery, huapsd]
    exact h.classes
  · rw [haid, hlegacy, AcLenOk, hac, hq, Sta.deliveryEnabled_congr huapsd]
    exact h.acLen

theorem onlySta_setSta (s : XmitPriv) (k : ℕ) (p : Sta) : OnlySta s (s.setSta k p) k :=
  ⟨rfl, rfl, fun _ hj => XmitPriv.setSta_of_ne s hj p, rfl, rfl⟩

theorem Told.setFlags {s : XmitPriv} (hs : Told s) {k : ℕ} (hk : k ∈ s.staHash) {p : Sta}
    (hmac : p.macAddr = (s.sta k).macAddr) (haid : p.aid = (s.sta k).aid)
    (hlegacy : p.hasLegacyAc = (s.sta k).hasLegacyAc) (huapsd : p.uapsd = (s.sta k).uapsd)
    (hq : p.sleepQ = (s.sta k).sleepQ) (hp : Settled p) : Told (s.setSta k p) := by
  apply hs.of_onlySta hk (onlySta_setSta s k p) (XmitPriv.setSta_self s k p) hmac haid hp
  exact owes_congr hq huapsd hlegacy

/-! ## Buffering -/

theorem AllDelivery.deliveryEnabled {p : Sta} (h : AllDelivery p) (f : XmitFrame) :
    p.deliveryEnabled f = true := h (acOf f.priority)

theorem owes_buffer {p : Sta} (h : Settled p) (haid : p.aid ≠ 0) (f : XmitFrame) :
    Owes (p.buffer f) ↔ Owes p ∨ p.announced f = true := by
  have hd : (p.buffer f).deliveryEnabled = p.deliveryEnabled := Sta.deliveryEnabled_congr rfl
  rw [Owes, Owes, ApXmit.Sta.announced, hd]
  change (if p.hasLegacyAc = true then ∃ g ∈ p.sleepQ ++ [f], p.deliveryEnabled g = false
    else p.sleepQ ++ [f] ≠ []) ↔ _
  cases hlegacy : p.hasLegacyAc with
  | false =>
    have hf := ((h.classes haid).mp hlegacy).deliveryEnabled f
    simp [hf]
  | true =>
    simp only [if_true, List.mem_append, List.mem_singleton, or_and_right, exists_or,
      exists_eq_left]
    cases p.deliveryEnabled f <;> simp

theorem buffer_settled {p : Sta} (h : Settled p) (hholds : Holds p) (f : XmitFrame) :
    Settled (p.buffer f) := by
  refine h.of_settings ⟨rfl, rfl, rfl, rfl, rfl, rfl, rfl⟩ ?_ ?_ ?_
  · exact buffer_len h.len f
  · intro hnot
    exact absurd hholds hnot
  · intro haid hlegacy
    exact buffer_acLen (h.acLen haid hlegacy) f

theorem bufferGroup_settled {p : Sta} (h : Settled p) (hmac : p.macAddr = bcAddr)
    (f : XmitFrame) : Settled (p.bufferGroup f) := by
  refine h.of_settings ⟨rfl, rfl, rfl, rfl, rfl, rfl, rfl⟩ ?_ ?_ ?_
  · exact bufferGroup_len h.len f
  · intro hnot
    exact absurd (Or.inr hmac) hnot
  · intro haid
    exact absurd (h.broadcast hmac).1 haid

theorem Holds.aid_ne_zero {p : Sta} (h : Holds p) {ra : MacAddr}
    (hmac : p.macAddr = if isMcast ra = true then bcAddr else ra) (hra : ¬ isMcast ra = true) :
    p.aid ≠ 0 := by
  apply h.resolve_right
  intro hbc
  rw [if_neg hra, hbc] at hmac
  rw [← hmac] at hra
  exact hra isMcast_bcAddr

theorem xmitframeEnqueueForSleepingSta_told {s : XmitPriv} (hs : Told s) (f : XmitFrame) :
    Told (xmitframeEnqueueForSleepingSta s f).1 := by
  simp only [xmitframeEnqueueForSleepingSta]
  cases hget : rtwGetStainfo s f.ra with
  | none => exact hs
  | some k =>
    have hk := rtwGetStainfo_mem hget
    have hmac := rtwGetStainfo_macAddr hget
    have hp := hs.settled k hk
    dsimp only
    split_ifs with _ hlinked _ hmc _ hsleep hann
    · exact hs
    · exact hs
    · exact hs
    · rw [if_pos hmc] at hmac
      have haid : ((s.sta k).aid : ℕ) = 0 := by
        rw [(hp.broadcast hmac).1]
        rfl
      have hself := XmitPriv.setSta_self s k ((s.sta k).bufferGroup f)
      have honly := (onlySta_setSta s k ((s.sta k).bufferGroup f)).sta
      have hgroup : Told ((s.setSta k ((s.sta k).bufferGroup f)).setTim 0) := by
        refine hs.update hk ⟨rfl, rfl, honly⟩ hself rfl rfl (bufferGroup_settled hp hmac f)
          ?_ ?_ ?_
        · intro id hid
          change rtwTimMapSet s.timBitmap 0 id = _
          rw [rtwTimMapSet_zero, Function.update_of_ne (haid ▸ hid)]
        · intro _
          change rtwTimMapSet s.timBitmap 0 (s.sta k).aid = true ↔
            if (s.sta k).hasLegacyAc = true then _ else (s.sta k).sleepQ ++ [f] ≠ []
          rw [haid, rtwTimMapSet_zero, Function.update_self, (hp.broadcast hmac).2.2.1]
          simp
        · intro hnot
          exact absurd (Or.inr hmac) hnot
      exact hgroup.of_same rfl rfl rfl rfl
    · exact hs
    · have hholds : Holds (s.sta k) := hp.linked (by simpa using hlinked)
      have haid := hholds.aid_ne_zero hmac hmc
      have honly := (onlySta_setSta s k ((s.sta k).buffer f)).sta
      refine hs.update hk ⟨rfl, rfl, honly⟩ (XmitPriv.setSta_self s k _) rfl rfl
        (buffer_settled hp hholds f) ?_ ?_ ?_
      · intro id hid
        change rtwTimMapSet s.timBitmap (s.sta k).aid id = _
        rw [rtwTimMapSet_aid, Function.update_of_ne hid]
      · intro _
        change rtwTimMapSet s.timBitmap (s.sta k).aid (s.sta k).aid = true ↔ _
        rw [rtwTimMapSet_aid, Function.update_self, owes_buffer hp haid, hann]
        simp
      · intro hnot
        exact absurd hholds hnot
    · have hholds : Holds (s.sta k) := hp.linked (by simpa using hlinked)
      have haid := hholds.aid_ne_zero hmac hmc
      refine hs.of_onlySta hk (onlySta_setSta s k _) (XmitPriv.setSta_self s k _) rfl rfl
        (buffer_settled hp hholds f) ?_
      rw [owes_buffer hp haid]
      simp [hann]
    · exact hs

theorem framesToSleepingQueue_told {s : XmitPriv} (hs : Told s) (k : ℕ) (q : List XmitFrame) :
    Told (framesToSleepingQueue s k q).1 := by
  induction q generalizing s with
  | nil => exact hs
  | cons f q ih =>
    simp only [framesToSleepingQueue]
    have henq := xmitframeEnqueueForSleepingSta_told hs { f with triggered := false }
    split_ifs
    · exact ih (henq.of_same rfl rfl rfl rfl)
    · exact ih henq

theorem stopServqs_told {s : XmitPriv} (hs : Told s) (k : ℕ) : Told (stopServqs s k) := by
  have hstep : ∀ {t : XmitPriv} (ac : Ac), Told t → Told (stopServq t k ac) := by
    intro t ac ht
    exact (framesToSleepingQueue_told ht k (t.servq k ac).staPending).of_same rfl rfl rfl rfl
  apply hstep
  apply hstep
  apply hstep
  exact hstep .vo hs

theorem stopStaXmit_told {s : XmitPriv} (hs : Told s) {k : ℕ} (hk : k ∈ s.staHash) (bmc : ℕ) :
    Told (stopStaXmit s k bmc) := by
  have hp := hs.settled k hk
  have hsleep : Told (s.setSta k ((s.sta k).setSleep true)) :=
    hs.setFlags hk rfl rfl rfl rfl rfl (hp.of_flags rfl rfl rfl rfl rfl rfl rfl rfl hp.linked)
  simp only [stopStaXmit]
  apply stopServqs_told
  apply stopServqs_told
  exact hsleep.of_same rfl rfl rfl rfl

/-! ## Waking up -/

theorem decAcLen_acLen {p : Sta} {kept q : List XmitFrame} {f : XmitFrame} (h : AcLenOk p)
    (hq : p.sleepQ = kept ++ f :: q) (hf : p.deliveryEnabled f = true) :
    AcLenOk (p.setSleepQ (kept ++ q)).decLen.decAcLen := by
  have hac : p.sleepqAcLen = (kept ++ q).countP p.deliveryEnabled + 1 := by
    rw [h, hq, countP_middle, hf, if_pos rfl]
  change dec32 p.sleepqAcLen = (kept ++ q).countP p.deliveryEnabled
  rw [hac]
  rfl

theorem deliver_settled {p : Sta} {kept q : List XmitFrame} {f : XmitFrame} (h : Settled p)
    (hq : p.sleepQ = kept ++ f :: q) (hf : p.deliveryEnabled f = true) :
    Settled (p.setSleepQ (kept ++ q)).decLen.decAcLen := by
  refine h.of_settings ⟨rfl, rfl, rfl, rfl, rfl, rfl, rfl⟩ (decLen_lenOk h.len hq) ?_ ?_
  · intro hnot
    rw [h.unheld hnot] at hq
    simp at hq
  · intro haid hlegacy
    exact decAcLen_acLen (h.acLen haid hlegacy) hq hf

theorem decLen_settled {p : Sta} {q : List XmitFrame} {f : XmitFrame} (h : Settled p)
    (hq : p.sleepQ = f :: q) (hf : p.aid ≠ 0 → p.hasLegacyAc = false → False) :
    Settled (p.setSleepQ q).decLen := by
  have hq' : p.sleepQ = [] ++ f :: q := hq
  refine h.of_settings (decLen_settings p q) (decLen_lenOk h.len hq') ?_ ?_
  · intro hnot
    rw [h.unheld hnot] at hq
    cases hq
  · intro haid hlegacy
    exact absurd hlegacy (fun hl => hf haid hl)

theorem wakeFrame_settled {p : Sta} {f : XmitFrame} {q : List XmitFrame} (h : Settled p)
    (hq : p.sleepQ = f :: q) : Settled (wakeFrame (p.setSleepQ q) f).1 := by
  have htrig : (p.setSleepQ q).triggerEnabled f = p.deliveryEnabled f := h.paired.triggerEnabled f
  have hq' : p.sleepQ = [] ++ f :: q := hq
  rw [wakeFrame_sta, htrig]
  split_ifs with hf
  · exact deliver_settled h hq' hf
  · apply decLen_settled h hq
    intro haid hlegacy
    exact hf (((h.classes haid).mp hlegacy).deliveryEnabled f)

theorem owes_of_nil {p : Sta} (hq : p.sleepQ = []) : ¬ Owes p := by
  rw [Owes, hq]
  split_ifs
  · rintro ⟨f, hf, -⟩
    cases hf
  · simp

/-- The bit of the group frames is not set, or it is the station's own. -/
def HoldsBit (s : XmitPriv) (k : ℕ) : Prop := Holds (s.sta k) ∨ s.timBitmap 0 = false

instance (s : XmitPriv) (k : ℕ) : Decidable (HoldsBit s k) := inferInstanceAs (Decidable (_ ∨ _))

theorem Told.cleared {s t : XmitPriv} (hs : Told s) {k : ℕ} (hk : k ∈ s.staHash) {p : Sta}
    (honly : OnlyTim s t k) (hsta : t.sta k = p) (hmac : p.macAddr = (s.sta k).macAddr)
    (haid : p.aid = (s.sta k).aid) (hp : Settled p) (hq : p.sleepQ = [])
    (htim : t.timBitmap = rtwTimMapClear s.timBitmap (s.sta k).aid) (hbit : HoldsBit s k) :
    Told t := by
  refine hs.update hk honly hsta hmac haid hp ?_ ?_ ?_
  · intro id hid
    rw [htim, rtwTimMapClear_aid, Function.update_of_ne hid]
  · intro _
    rw [htim, rtwTimMapClear_aid, Function.update_self]
    simpa using owes_of_nil hq
  · intro hnot
    have hzero := hbit.resolve_left hnot
    rw [htim, Told.unheld_zero hnot, rtwTimMapClear_aid]
    change Function.update s.timBitmap 0 false = s.timBitmap
    rw [← hzero, Function.update_eq_self]

theorem releaseAll_settled {s : XmitPriv} {k : ℕ} (hp : Settled (s.sta k)) :
    (Settled ((releaseAll s k (s.sta k).sleepQ).sta k) ∧
        SameSettings (s.sta k) ((releaseAll s k (s.sta k).sleepQ).sta k)) ∧
      ((releaseAll s k (s.sta k).sleepQ).sta k).sleepQ = [] ∧
        OnlySta s (releaseAll s k (s.sta k).sleepQ) k := by
  apply releaseAll_spec (fun p => Settled p ∧ SameSettings (s.sta k) p)
  · intro p f q hp hq
    exact ⟨wakeFrame_settled hp.1 hq, hp.2.trans (wakeFrame_settings p f q)⟩
  · exact ⟨hp, SameSettings.refl _⟩
  · rfl

/-- After `awaken` the queue is empty and the bit of the AID is cleared. -/
structure Awake (s t : XmitPriv) (k : ℕ) : Prop where
  only : OnlyTim s t k
  macAddr : (t.sta k).macAddr = (s.sta k).macAddr
  aid : (t.sta k).aid = (s.sta k).aid
  settled : Settled (t.sta k)
  sleepQ : (t.sta k).sleepQ = []
  tim : t.timBitmap = rtwTimMapClear s.timBitmap (s.sta k).aid
  dz : t.staDzBitmap = rtwTimMapClear s.staDzBitmap (s.sta k).aid

theorem awaken_awake {s : XmitPriv} {k : ℕ} (hp : Settled (s.sta k)) :
    Awake s (awaken (releaseAll s k (s.sta k).sleepQ) k) k := by
  obtain ⟨⟨hu, hset⟩, hnil, honly⟩ := releaseAll_settled hp
  generalize releaseAll s k (s.sta k).sleepQ = u at hu hset hnil honly ⊢
  have hlen : (u.sta k).sleepqLen = 0 := by
    rw [hu.len, hnil, List.length_nil]
  have hself := XmitPriv.setSta_self (u.clearTim (u.sta k).aid) k
    ((u.sta k).setSleep false)
  simp only [awaken, hlen, if_true]
  refine ⟨⟨honly.staHash, honly.freeStaQueue, ?_⟩, ?_, ?_, ?_, ?_, ?_, ?_⟩
  · intro j hj
    change ((u.clearTim (u.sta k).aid).setSta k _).sta j = s.sta j
    rw [XmitPriv.setSta_of_ne _ hj]
    exact honly.sta j hj
  · change (((u.clearTim (u.sta k).aid).setSta k _).sta k).macAddr = _
    rw [hself]
    exact hset.macAddr
  · change (((u.clearTim (u.sta k).aid).setSta k _).sta k).aid = _
    rw [hself]
    exact hset.aid
  · change Settled (((u.clearTim (u.sta k).aid).setSta k _).sta k)
    rw [hself]
    exact hu.of_flags rfl rfl rfl rfl rfl rfl rfl rfl hu.linked
  · change (((u.clearTim (u.sta k).aid).setSta k _).sta k).sleepQ = _
    rw [hself]
    exact hnil
  · change rtwTimMapClear u.timBitmap (u.sta k).aid = _
    rw [honly.timBitmap, hset.aid]
  · change rtwTimMapClear u.staDzBitmap (u.sta k).aid = _
    rw [honly.staDzBitmap, hset.aid]

theorem releaseGroup_settled {s : XmitPriv} {bmc : ℕ} (hp : Settled (s.sta bmc))
    (hmac : (s.sta bmc).macAddr = bcAddr) :
    (Settled ((releaseGroup s bmc (s.sta bmc).sleepQ).sta bmc) ∧
        SameSettings (s.sta bmc) ((releaseGroup s bmc (s.sta bmc).sleepQ).sta bmc)) ∧
      ((releaseGroup s bmc (s.sta bmc).sleepQ).sta bmc).sleepQ = [] ∧
        OnlySta s (releaseGroup s bmc (s.sta bmc).sleepQ) bmc := by
  apply releaseGroup_spec (fun p => Settled p ∧ SameSettings (s.sta bmc) p)
  · intro p f q hp hq
    refine ⟨decLen_settled hp.1 hq ?_, hp.2.trans (decLen_settings p q)⟩
    intro haid
    exact absurd (hp.1.broadcast (hp.2.macAddr.trans hmac)).1 haid
  · exact ⟨hp, SameSettings.refl _⟩
  · rfl

/-- Once nobody dozes the group frames go, and their bit is cleared whatever it was. -/
theorem flushGroup_told {v u : XmitPriv} (hv : Told v) (hhash : u.staHash = v.staHash)
    (hfree : u.freeStaQueue = v.freeStaQueue) (hsta : u.sta = v.sta)
    (htim : ∀ id, id ≠ 0 → u.timBitmap id = v.timBitmap id) {bmc : ℕ}
    (hbmc : bmc ∈ v.staHash) (hmac : (v.sta bmc).macAddr = bcAddr) {t : XmitPriv}
    (ht : t = if ((releaseGroup u bmc (u.sta bmc).sleepQ).sta bmc).sleepqLen = 0 then
      ((releaseGroup u bmc (u.sta bmc).sleepQ).clearTim 0).clearDz 0
      else releaseGroup u bmc (u.sta bmc).sleepQ) : Told t := by
  have hp := hv.settled bmc hbmc
  have haid : ((v.sta bmc).aid : ℕ) = 0 := by
    rw [(hp.broadcast hmac).1]
    rfl
  rw [← hsta] at hp hmac
  obtain ⟨⟨hw, hset⟩, hnil, honly⟩ := releaseGroup_settled hp hmac
  generalize releaseGroup u bmc (u.sta bmc).sleepQ = w at hw hset hnil honly ht
  have hlen : (w.sta bmc).sleepqLen = 0 := by
    rw [hw.len, hnil, List.length_nil]
  rw [if_pos hlen] at ht
  subst ht
  rw [hsta] at hset
  have hthis : OnlyTim v ((w.clearTim 0).clearDz 0) bmc := by
    refine ⟨honly.staHash.trans hhash, honly.freeStaQueue.trans hfree, ?_⟩
    intro j hj
    exact (honly.sta j hj).trans (congrFun hsta j)
  refine hv.update hbmc hthis rfl hset.macAddr hset.aid hw ?_ ?_ ?_
  · intro id hid
    rw [haid] at hid
    change rtwTimMapClear w.timBitmap 0 id = _
    rw [rtwTimMapClear_zero, Function.update_of_ne hid, honly.timBitmap]
    exact htim id hid
  · intro _
    change rtwTimMapClear w.timBitmap 0 (v.sta bmc).aid = true ↔ _
    rw [haid, rtwTimMapClear_zero, Function.update_self]
    exact ⟨fun h => absurd h Bool.false_ne_true, fun h => absurd h (owes_of_nil hnil)⟩
  · intro hnot
    rw [hsta] at hmac
    exact absurd (Or.inr hmac) hnot

theorem anyoneExcludeAid0_clear_zero (map : ℕ → Bool) :
    rtwTimMapAnyoneBeSetExcludeAid0 (rtwTimMapClear map 0) =
      rtwTimMapAnyoneBeSetExcludeAid0 map := by
  simp only [rtwTimMapAnyoneBeSetExcludeAid0, rtwTimMapClear_zero]
  apply congrArg ((List.range (8 * aidBmpLen)).any)
  funext id
  by_cases hid : id = 0
  · simp [hid]
  · rw [Function.update_of_ne hid]

/-- The waking station holds its bit, or the group frames leave with it. -/
def WakeOk (s : XmitPriv) (k : ℕ) : Prop :=
  HoldsBit s k ∨ rtwTimMapAnyoneBeSetExcludeAid0 s.staDzBitmap = false

instance (s : XmitPriv) (k : ℕ) : Decidable (WakeOk s k) := inferInstanceAs (Decidable (_ ∨ _))

theorem wakeupStaToXmit_told {s : XmitPriv} (hs : Told s) {k : ℕ} (hk : k ∈ s.staHash)
    (hok : WakeOk s k) : Told (wakeupStaToXmit s k) := by
  have hawake := awaken_awake (hs.settled k hk)
  simp only [wakeupStaToXmit]
  generalize awaken (releaseAll s k (s.sta k).sleepQ) k = u at hawake ⊢
  by_cases hbit : HoldsBit s k
  · have hu : Told u := hs.cleared hk hawake.only rfl hawake.macAddr hawake.aid hawake.settled
      hawake.sleepQ hawake.tim hbit
    cases hbmc : rtwGetBcmcStainfo u with
    | none => exact hu
    | some bmc =>
      dsimp only
      by_cases hany : rtwTimMapAnyoneBeSetExcludeAid0 u.staDzBitmap = true
      · rw [if_pos hany]
        exact hu
      · rw [if_neg hany]
        exact flushGroup_told hu rfl rfl rfl (fun _ _ => rfl) (rtwGetStainfo_mem hbmc)
          (rtwGetBcmcStainfo_macAddr hbmc) rfl
  · have hnot : ¬ Holds (s.sta k) := fun h => hbit (Or.inl h)
    have hzero := Told.unheld_zero hnot
    have hany : rtwTimMapAnyoneBeSetExcludeAid0 u.staDzBitmap = false := by
      rw [hawake.dz, hzero]
      exact (anyoneExcludeAid0_clear_zero s.staDzBitmap).trans (hok.resolve_left hbit)
    -- The station has nothing buffered; only bit 0 is wrong until the group frames go.
    have hv : Told { u with timBitmap := s.timBitmap } := by
      refine hs.update hk ⟨hawake.only.staHash, hawake.only.freeStaQueue, hawake.only.sta⟩ rfl
        hawake.macAddr hawake.aid hawake.settled (fun _ _ => rfl) ?_ (fun _ => rfl)
      intro hholds
      exact absurd hholds hnot
    have htim : ∀ id, id ≠ 0 → u.timBitmap id = s.timBitmap id := by
      intro id hid
      rw [hawake.tim, hzero]
      exact (congrFun (rtwTimMapClear_zero s.timBitmap) id).trans (Function.update_of_ne hid _ _)
    cases hbmc : rtwGetBcmcStainfo u with
    | none =>
      -- A set bit 0 has a holder, which could only be the broadcast entry.
      have hset : s.timBitmap 0 = true := by
        simpa using fun h => hbit (Or.inr h)
      obtain ⟨j, hj, hhj, haj⟩ := hv.owned 0 hset
      have hjmac : (u.sta j).macAddr = bcAddr :=
        hhj.resolve_left (not_not_intro (Fin.ext haj))
      have hnone := List.find?_eq_none.mp hbmc j hj
      rw [isMcast_bcAddr] at hnone
      simp [hjmac] at hnone
    | some bmc =>
      dsimp only
      rw [if_neg (by rw [hany]; exact Bool.false_ne_true)]
      exact flushGroup_told (u := u) hv rfl rfl rfl htim (rtwGetStainfo_mem (s := u) hbmc)
        (rtwGetBcmcStainfo_macAddr (s := u) hbmc) rfl

/-! ## Service periods and PS-Polls -/

theorem deliverFrame_tim (s : XmitPriv) (k : ℕ) (rest : List XmitFrame) (f : XmitFrame) :
    (deliverFrame s k rest f).1.timBitmap =
      if ((s.sta k).setSleepQ rest).decLen.decAcLen.sleepqAcLen = 0 ∧
          (s.sta k).hasLegacyAc = false then
        rtwTimMapClear s.timBitmap (s.sta k).aid
      else s.timBitmap := by
  obtain ⟨honly, -⟩ := onlySta_send s k (deliveredFrame ((s.sta k).setSleepQ rest) f).1
    (deliveredFrame ((s.sta k).setSleepQ rest) f).2
  have htim := honly.timBitmap
  change (if ((s.sta k).setSleepQ rest).decLen.decAcLen.sleepqAcLen = 0 ∧
      (s.sta k).hasLegacyAc = false then _ else _ : XmitPriv).timBitmap = _
  split_ifs
  · exact congrArg (fun map => rtwTimMapClear map (s.sta k).aid) htim
  · exact htim

theorem owes_delivered {p : Sta} {kept q : List XmitFrame} {f : XmitFrame}
    (hlegacy : p.hasLegacyAc = true) (hq : p.sleepQ = kept ++ f :: q)
    (hf : p.deliveryEnabled f = true) :
    Owes (p.setSleepQ (kept ++ q)).decLen.decAcLen ↔ Owes p := by
  have hd : (p.setSleepQ (kept ++ q)).decLen.decAcLen.deliveryEnabled = p.deliveryEnabled :=
    Sta.deliveryEnabled_congr rfl
  rw [Owes, Owes, hd, hq]
  change (if p.hasLegacyAc = true then ∃ g ∈ kept ++ q, p.deliveryEnabled g = false else _) ↔ _
  simp only [hlegacy, if_true, List.mem_append, List.mem_cons]
  apply exists_congr
  intro g
  by_cases hg : g = f
  · subst hg
    simp [hf]
  · simp [hg]

theorem deliverFrame_told {s : XmitPriv} (hs : Told s) {k : ℕ} (hk : k ∈ s.staHash)
    {kept q : List XmitFrame} {f : XmitFrame} (hq : (s.sta k).sleepQ = kept ++ f :: q)
    (hf : (s.sta k).deliveryEnabled f = true) :
    Told (deliverFrame s k (kept ++ q) f).1 := by
  have hp := hs.settled k hk
  have hholds : Holds (s.sta k) := hs.holds hk (by rw [hq]; simp)
  have haid : (s.sta k).aid ≠ 0 := by
    apply hholds.resolve_right
    intro hbc
    simp only [ApXmit.Sta.deliveryEnabled, (hp.broadcast hbc).2.1, Nat.zero_testBit] at hf
    exact Bool.false_ne_true hf
  have hsettled := deliver_settled hp hq hf
  obtain ⟨honly, hsta⟩ := deliverFrame_sta s k (kept ++ q) f
  have htim := deliverFrame_tim s k (kept ++ q) f
  refine hs.update hk honly hsta rfl rfl hsettled ?_ ?_ ?_
  · intro id hid
    rw [htim]
    split_ifs
    · rw [rtwTimMapClear_aid, Function.update_of_ne hid]
    · rfl
  · intro _
    rw [htim]
    cases hlegacy : (s.sta k).hasLegacyAc with
    | true =>
      rw [if_neg (by simp), owes_delivered hlegacy hq hf]
      exact hs.announced k hk hholds
    | false =>
      -- Every buffered frame counts, so the counter is zero when the queue is empty.
      have hall := (hp.classes haid).mp hlegacy
      have hac : ((s.sta k).setSleepQ (kept ++ q)).decLen.decAcLen.sleepqAcLen =
          (kept ++ q).length := by
        rw [hsettled.acLen haid hlegacy, List.countP_eq_length.mpr]
        · rfl
        · intro g _
          exact hall (acOf g.priority)
      have howes : Owes ((s.sta k).setSleepQ (kept ++ q)).decLen.decAcLen ↔ kept ++ q ≠ [] := by
        rw [Owes]
        change (if (s.sta k).hasLegacyAc = true then _ else kept ++ q ≠ []) ↔ _
        rw [hlegacy, if_neg Bool.false_ne_true]
      simp only [hac, howes, List.length_eq_zero_iff, and_true]
      split_ifs with hnil
      · rw [rtwTimMapClear_aid, Function.update_self]
        simp [hnil]
      · have hset : s.timBitmap (s.sta k).aid = true := by
          rw [hs.announced k hk hholds, Owes, hlegacy, if_neg Bool.false_ne_true, hq]
          simp
        simpa [hset] using hnil
  · intro hnot
    exact absurd hholds hnot

theorem deliverFrames_told {s : XmitPriv} (hs : Told s) {k : ℕ} (hk : k ∈ s.staHash)
    {kept q : List XmitFrame} (hq : (s.sta k).sleepQ = kept ++ q) :
    Told (deliverFrames s k kept q).1 := by
  induction q generalizing s kept with
  | nil => exact hs
  | cons f q ih =>
    rw [deliverFrames, (hs.settled k hk).paired.triggerEnabled]
    split_ifs with hf
    · have hthis := deliverFrame_told hs hk hq hf
      obtain ⟨honly, hsta⟩ := deliverFrame_sta s k (kept ++ q) f
      apply ih hthis
      · rw [honly.staHash]
        exact hk
      · rw [hsta]
        rfl
    · apply ih hs hk
      rw [hq, List.append_assoc, List.singleton_append]

theorem processWmmpsData_told {s : XmitPriv} (hs : Told s) {k : ℕ} (hk : k ∈ s.staHash)
    (priority : ℕ) : Told (processWmmpsData s k priority).1 := by
  simp only [processWmmpsData]
  split_ifs
  · exact hs
  · exact hs
  · exact deliverFrames_told hs hk (List.nil_append _).symm
  · exact hs

theorem pollOne_tim (s : XmitPriv) (k : ℕ) (rest : List XmitFrame) (f : XmitFrame) :
    (pollOne s k rest f).timBitmap =
      if ((s.sta k).setSleepQ rest).decLen.sleepqLen = 0 then
        rtwTimMapClear s.timBitmap (s.sta k).aid
      else s.timBitmap := by
  obtain ⟨honly, -⟩ := onlySta_send s k (plainFrame ((s.sta k).setSleepQ rest) f).1
    (plainFrame ((s.sta k).setSleepQ rest) f).2
  have htim := honly.timBitmap
  change (if ((s.sta k).setSleepQ rest).decLen.sleepqLen = 0 then _ else _ : XmitPriv).timBitmap = _
  split_ifs
  · exact congrArg (fun map => rtwTimMapClear map (s.sta k).aid) htim
  · exact htim

/-- The frame the poll takes is not the last announced one before others. -/
def PollKeepsTim (p : Sta) : Prop :=
  ∀ f ∈ p.sleepQ.head?, ¬ (p.deliveryEnabled f = false ∧ p.sleepQ.tail ≠ [] ∧
    ∀ g ∈ p.sleepQ.tail, p.deliveryEnabled g = true)

instance (p : Sta) : Decidable (PollKeepsTim p) := inferInstanceAs (Decidable (∀ _ ∈ _, _))

theorem owes_polled {p : Sta} {q : List XmitFrame} {f : XmitFrame} (hq : p.sleepQ = f :: q)
    (hne : q ≠ []) (hok : PollKeepsTim p) : Owes (p.setSleepQ q).decLen ↔ Owes p := by
  have hd : (p.setSleepQ q).decLen.deliveryEnabled = p.deliveryEnabled :=
    Sta.deliveryEnabled_congr rfl
  rw [PollKeepsTim, hq] at hok
  have hok' := hok f rfl
  rw [Owes, Owes, hd, hq]
  change (if p.hasLegacyAc = true then ∃ g ∈ q, p.deliveryEnabled g = false else q ≠ []) ↔ _
  split_ifs
  · constructor
    · rintro ⟨g, hg, hgd⟩
      exact ⟨g, List.mem_cons_of_mem f hg, hgd⟩
    · rintro ⟨g, hg, hgd⟩
      rcases List.mem_cons.mp hg with rfl | hg
      · by_contra hnone
        apply hok'
        refine ⟨hgd, hne, ?_⟩
        intro g' hg'
        by_contra hgd'
        exact hnone ⟨g', hg', by simpa using hgd'⟩
      · exact ⟨g, hg, hgd⟩
  · simp [hne]

theorem psPoll_told {s : XmitPriv} (hs : Told s) {k : ℕ} (hk : k ∈ s.staHash)
    (aid priority : ℕ) (hok : psPollServed s k aid priority = true →
      HoldsBit s k ∧ PollKeepsTim (s.sta k)) : Told (psPoll s k aid priority) := by
  have hp := hs.settled k hk
  simp only [psPoll]
  split_ifs with hserved
  · obtain ⟨hbit, hkeeps⟩ := hok hserved
    cases hq : (s.sta k).sleepQ with
    | nil =>
      simp only [pollNone]
      split_ifs
      · refine hs.cleared hk ⟨rfl, rfl, (onlySta_setSta s k _).sta⟩ (XmitPriv.setSta_self s k _)
          rfl rfl ?_ hq rfl hbit
        refine hp.of_flags rfl rfl rfl rfl rfl rfl ?_ rfl hp.linked
        rw [hp.len, hq, List.length_nil]
      · exact hs
    | cons f q =>
      have hholds : Holds (s.sta k) := hs.holds hk (by rw [hq]; simp)
      obtain ⟨honly, hsta⟩ := pollOne_sta s k q f
      have htim := pollOne_tim s k q f
      -- A station of only delivery enabled categories is not answered.
      have hlegacy : (s.sta k).aid ≠ 0 → (s.sta k).hasLegacyAc = false → False := by
        intro haid hl
        have hall := (hp.classes haid).mp hl (acOf priority)
        simp [psPollServed, hall] at hserved
      have hsettled := decLen_settled hp hq hlegacy
      have hlen : ((s.sta k).setSleepQ q).decLen.sleepqLen = q.length := hsettled.len
      simp only [hlen, List.length_eq_zero_iff] at htim
      refine hs.update hk honly hsta rfl rfl hsettled ?_ ?_ ?_
      · intro id hid
        rw [htim]
        split_ifs
        · rw [rtwTimMapClear_aid, Function.update_of_ne hid]
        · rfl
      · intro _
        rw [htim]
        split_ifs with hnil
        · rw [rtwTimMapClear_aid, Function.update_self]
          exact ⟨fun h => absurd h Bool.false_ne_true, fun h => absurd h (owes_of_nil hnil)⟩
        · rw [owes_polled hq hnil hkeeps]
          exact hs.announced k hk hholds
      · intro hnot
        exact absurd hholds hnot
  · exact hs

/-! ## Stations come and go -/

theorem settled_fresh (hwaddr : MacAddr) : Settled { macAddr := hwaddr } := by
  refine ⟨rfl, paired_of_zero rfl, ?_, fun _ => rfl, fun _ => ⟨rfl, rfl, rfl, rfl⟩, ?_, ?_⟩
  · intro h
    exact absurd h Bool.false_ne_true
  · intro h
    exact absurd rfl h
  · intro h
    exact absurd rfl h

theorem Told.enter {s t : XmitPriv} (hs : Told s) {k : ℕ} {hwaddr : MacAddr}
    (hfree : s.freeStaQueue = k :: t.freeStaQueue) (hhash : t.staHash = s.staHash ++ [k])
    (hself : t.sta k = { macAddr := hwaddr }) (hother : ∀ j ∈ s.staHash, t.sta j = s.sta j)
    (htim : t.timBitmap = s.timBitmap) (hnone : rtwGetStainfo s hwaddr = none) : Told t := by
  have hnodup := hs.free_nodup
  rw [hfree] at hnodup
  have hk : k ∉ s.staHash := hs.free_not_mem k (by rw [hfree]; exact List.mem_cons_self)
  have hsplit : ∀ {P : ℕ → Prop}, (∀ j ∈ s.staHash, P j) → P k → ∀ j ∈ t.staHash, P j := by
    intro P hold hnew j hj
    rw [hhash] at hj
    rcases List.mem_append.mp hj with hj | hj
    · exact hold j hj
    · rw [List.mem_singleton.mp hj]
      exact hnew
  -- The new entry holds a bit only as the broadcast entry, of which there was none.
  have hzero : Holds { macAddr := hwaddr } → ∀ j ∈ s.staHash, Holds (s.sta j) →
      (s.sta j).aid ≠ 0 := by
    intro hholds j hj hhj
    apply hhj.resolve_right
    intro hmac
    have haddr : hwaddr = bcAddr := hholds.resolve_left (not_not_intro rfl)
    have hfind := List.find?_eq_none.mp hnone j hj
    rw [haddr, isMcast_bcAddr] at hfind
    simp [hmac] at hfind
  refine ⟨?_, hnodup.of_cons, ?_, ?_, ?_, ?_, ?_⟩
  · rw [hhash]
    exact hs.hash_nodup.append (List.nodup_singleton k) (by simpa using hk)
  · intro j hj hmem
    rw [hhash] at hmem
    rcases List.mem_append.mp hmem with hmem | hmem
    · exact hs.free_not_mem j (by rw [hfree]; exact List.mem_cons_of_mem k hj) hmem
    · rw [List.mem_singleton.mp hmem] at hj
      exact (List.nodup_cons.mp hnodup).1 hj
  · apply hsplit
    · intro j hj
      rw [hother j hj]
      exact hs.settled j hj
    · rw [hself]
      exact settled_fresh hwaddr
  · apply hsplit
    · intro i hi
      apply hsplit
      · intro j hj
        rw [hother i hi, hother j hj]
        exact hs.distinct i hi j hj
      · rw [hother i hi, hself]
        intro hhi hhk haid
        exact absurd haid (hzero hhk i hi hhi)
    · apply hsplit
      · intro j hj
        rw [hother j hj, hself]
        intro hhk hhj haid
        exact absurd haid.symm (hzero hhk j hj hhj)
      · intro _ _ _
        rfl
  · rw [htim]
    apply hsplit
    · intro j hj
      rw [hother j hj]
      exact hs.announced j hj
    · rw [hself]
      intro hholds
      refine ⟨fun hset => ?_, fun howes => absurd howes (owes_of_nil rfl)⟩
      obtain ⟨j, hj, hhj, haj⟩ := hs.owned _ hset
      exact absurd (Fin.ext haj) (hzero hholds j hj hhj)
  · intro id hid
    rw [htim] at hid
    obtain ⟨j, hj, hhj, haj⟩ := hs.owned id hid
    refine ⟨j, ?_, ?_⟩
    · rw [hhash]
      exact List.mem_append_left _ hj
    · rw [hother j hj]
      exact ⟨hhj, haj⟩

theorem rtwAllocStainfo_told {s : XmitPriv} (hs : Told s) {hwaddr : MacAddr}
    (hnone : rtwGetStainfo s hwaddr = none) : Told (rtwAllocStainfo s hwaddr) := by
  simp only [rtwAllocStainfo]
  split
  · exact hs
  · rename_i k free hfree
    refine hs.enter hfree rfl (Function.update_self _ _ _) ?_ rfl hnone
    intro j hj
    apply Function.update_of_ne
    rintro rfl
    exact hs.free_not_mem j (by rw [hfree]; exact List.mem_cons_self) hj

theorem Told.leave {s t : XmitPriv} (hs : Told s) {k : ℕ} (hk : k ∈ s.staHash)
    (hhash : t.staHash = s.staHash.erase k) (hfree : t.freeStaQueue = s.freeStaQueue ++ [k])
    (hsta : ∀ j, j ≠ k → t.sta j = s.sta j)
    (htim : t.timBitmap = rtwTimMapClear s.timBitmap (s.sta k).aid) (hbit : HoldsBit s k) :
    Told t := by
  have hmem : ∀ j ∈ t.staHash, j ∈ s.staHash ∧ j ≠ k := by
    intro j hj
    rw [hhash, hs.hash_nodup.mem_erase_iff] at hj
    exact ⟨hj.2, hj.1⟩
  have hbits : ∀ id, t.timBitmap id = true ↔
      s.timBitmap id = true ∧ id ≠ ((s.sta k).aid : ℕ) := by
    intro id
    rw [htim, rtwTimMapClear_aid, Function.update_apply]
    split_ifs with hid
    · simp [hid]
    · simp [hid]
  -- Another holder has another AID, unless this station has none and bit 0 is clear.
  have hothers : ∀ j ∈ t.staHash, Holds (s.sta j) → s.timBitmap (s.sta j).aid = true →
      ((s.sta j).aid : ℕ) ≠ (s.sta k).aid := by
    intro j hj hhj hset heq
    obtain ⟨hj, hjk⟩ := hmem j hj
    by_cases hhk : Holds (s.sta k)
    · exact hjk (hs.distinct j hj k hk hhj hhk (Fin.ext heq))
    · have hzero : s.timBitmap 0 = false := hbit.resolve_left hhk
      rw [heq, Told.unheld_zero hhk] at hset
      exact Bool.false_ne_true (hzero.symm.trans hset)
  have hkfree : k ∉ s.freeStaQueue := fun h => hs.free_not_mem k h hk
  refine ⟨?_, ?_, ?_, ?_, ?_, ?_, ?_⟩
  · rw [hhash]
    exact hs.hash_nodup.erase k
  · rw [hfree]
    exact hs.free_nodup.append (List.nodup_singleton k) (by simpa using hkfree)
  · rw [hfree]
    intro j hj hjmem
    obtain ⟨hjs, hjk⟩ := hmem j hjmem
    rcases List.mem_append.mp hj with hj | hj
    · exact hs.free_not_mem j hj hjs
    · exact hjk (List.mem_singleton.mp hj)
  · intro j hj
    rw [hsta j (hmem j hj).2]
    exact hs.settled j (hmem j hj).1
  · intro i hi j hj
    rw [hsta i (hmem i hi).2, hsta j (hmem j hj).2]
    exact hs.distinct i (hmem i hi).1 j (hmem j hj).1
  · intro j hj
    rw [hsta j (hmem j hj).2, hbits]
    intro hhj
    rw [← hs.announced j (hmem j hj).1 hhj]
    exact ⟨fun h => h.1, fun h => ⟨h, hothers j hj hhj h⟩⟩
  · intro id hid
    obtain ⟨hset, hidk⟩ := (hbits id).mp hid
    obtain ⟨j, hj, hhj, haj⟩ := hs.owned id hset
    have hjk : j ≠ k := by
      rintro rfl
      exact hidk haj.symm
    refine ⟨j, ?_, ?_⟩
    · rw [hhash]
      exact (List.mem_erase_of_ne hjk).mpr hj
    · rw [hsta j hjk]
      exact ⟨hhj, haj⟩

theorem rtwFreeStainfo_told {s : XmitPriv} (hs : Told s) {k : ℕ} (hk : k ∈ s.staHash)
    (ownsAid : Bool) (hbit : HoldsBit s k) : Told (rtwFreeStainfo s k ownsAid) := by
  have hsame := flushServqs_sameSleep s k
  have hflush : Told (flushServqs s k) := hs.of_sameSleep hsame
  simp only [rtwFreeStainfo]
  generalize flushServqs s k = u at hsame hflush ⊢
  refine hflush.leave (k := k) ?_ rfl rfl ?_ ?_ ?_
  · rw [hsame.staHash]
    exact hk
  · intro j hjk
    exact XmitPriv.setSta_of_ne u hjk _
  · rw [hsame.sta]
    rfl
  · rw [HoldsBit, hsame.sta, hsame.timBitmap]
    exact hbit

theorem uapsd_testBit (qosInfo i : ℕ) :
    (StaInfo.uapsd qosInfo i).testBit 0 = qosInfo.testBit i := by
  rw [StaInfo.uapsd]
  split_ifs with h
  · rw [h]
    rfl
  · rw [Nat.zero_testBit]
    exact (Bool.eq_false_iff.mpr h).symm

theorem mod_sixteen_eq_iff (n : ℕ) :
    n % 16 = 15 ↔ n.testBit 0 ∧ n.testBit 1 ∧ n.testBit 2 ∧ n.testBit 3 := by
  simp only [Nat.testBit_eq_decide_div_mod_eq, decide_eq_true_eq]
  omega

theorem rtwApParseStaWmmIe_classes (p : Sta) (wmm : Option ℕ) :
    (rtwApParseStaWmmIe p wmm).hasLegacyAc = false ↔ AllDelivery (rtwApParseStaWmmIe p wmm) := by
  cases wmm with
  | none =>
    constructor
    · intro h
      exact absurd h (by simp [rtwApParseStaWmmIe])
    · intro h
      have hvo := h .vo
      simp [rtwApParseStaWmmIe] at hvo
  | some qosInfo =>
    have hleft : (rtwApParseStaWmmIe p (some qosInfo)).hasLegacyAc = false ↔ qosInfo % 16 = 15 := by
      simp [rtwApParseStaWmmIe]
    rw [hleft, mod_sixteen_eq_iff]
    constructor
    · rintro ⟨h0, h1, h2, h3⟩ ac
      cases ac with
      | vo => exact (uapsd_testBit qosInfo 0).trans h0
      | vi => exact (uapsd_testBit qosInfo 1).trans h1
      | be => exact (uapsd_testBit qosInfo 3).trans h3
      | bk => exact (uapsd_testBit qosInfo 2).trans h2
    · intro h
      exact ⟨(uapsd_testBit qosInfo 0).symm.trans (h .vo),
        (uapsd_testBit qosInfo 1).symm.trans (h .vi), (uapsd_testBit qosInfo 2).symm.trans (h .bk),
        (uapsd_testBit qosInfo 3).symm.trans (h .be)⟩

theorem joinBss_kept (p : Sta) (aid : Fin (maxAid + 1)) (wmm : Option ℕ) :
    (joinBss p aid wmm).macAddr = p.macAddr ∧ (joinBss p aid wmm).sleepQ = p.sleepQ ∧
      (joinBss p aid wmm).sleepqLen = p.sleepqLen ∧
      (joinBss p aid wmm).sleepqAcLen = p.sleepqAcLen := by
  cases wmm <;> exact ⟨rfl, rfl, rfl, rfl⟩

def JoinOk (p : Sta) (wmm : Option ℕ) : Prop :=
  SameClass p wmm ∧ p.sleepqAcLen = p.sleepQ.countP p.deliveryEnabled

instance (p : Sta) (wmm : Option ℕ) : Decidable (JoinOk p wmm) :=
  inferInstanceAs (Decidable (_ ∧ _))

theorem joinBss_settled {p : Sta} (h : Settled p) {aid : Fin (maxAid + 1)} {wmm : Option ℕ}
    (hmac : p.macAddr ≠ bcAddr) (haid : aidFor p aid ≠ 0) (hok : JoinOk p wmm) :
    Settled (joinBss p aid wmm) := by
  obtain ⟨hkmac, hkq, hklen, hkac⟩ := joinBss_kept p aid wmm
  refine ⟨?_, rtwApParseStaWmmIe_paired p wmm, fun _ => Or.inl haid,
    fun hnot => absurd (Or.inl haid) hnot, ?_, fun _ => rtwApParseStaWmmIe_classes p wmm, ?_⟩
  · rw [LenOk, hklen, hkq]
    exact h.len
  · rw [hkmac]
    exact fun hbc => absurd hbc hmac
  · intro _ _
    rw [AcLenOk, hkac, hkq, hok.2]
    rcases hok.1 with hnil | hsame
    · rw [hnil, List.countP_nil, List.countP_nil]
    · have huapsd : (joinBss p aid wmm).uapsd = p.uapsd := funext hsame
      rw [Sta.deliveryEnabled_congr huapsd]

theorem joinBss_owes {p : Sta} (h : Settled p) {aid : Fin (maxAid + 1)} {wmm : Option ℕ}
    (haid : p.aid ≠ 0) (hok : SameClass p wmm) : Owes (joinBss p aid wmm) ↔ Owes p := by
  obtain ⟨-, hkq, -, -⟩ := joinBss_kept p aid wmm
  rcases hok with hnil | hsame
  · have hnew : ¬ Owes (joinBss p aid wmm) := owes_of_nil (hkq.trans hnil)
    exact ⟨fun howes => absurd howes hnew, fun howes => absurd howes (owes_of_nil hnil)⟩
  · have huapsd : (rtwApParseStaWmmIe p wmm).uapsd = p.uapsd := funext hsame
    have hlegacy : (rtwApParseStaWmmIe p wmm).hasLegacyAc = false ↔ p.hasLegacyAc = false := by
      rw [rtwApParseStaWmmIe_classes, h.classes haid, AllDelivery, AllDelivery, huapsd]
    apply owes_congr hkq huapsd
    change (rtwApParseStaWmmIe p wmm).hasLegacyAc = p.hasLegacyAc
    exact Bool.eq_iff_iff.mpr (by simpa using not_congr hlegacy)

theorem Told.takeAid {s t : XmitPriv} (hs : Told s) {k : ℕ} (hk : k ∈ s.staHash) {p : Sta}
    (honly : OnlySta s t k) (hsta : t.sta k = p) (hnot : ¬ Holds (s.sta k))
    (hunused : ∀ j ∈ s.staHash, j ≠ k → (s.sta j).aid ≠ p.aid) (hq : p.sleepQ = [])
    (hsettled : Settled p) : Told t := by
  have hrecord : ∀ {P : ℕ → Sta → Prop}, (∀ j ∈ s.staHash, j ≠ k → P j (s.sta j)) → P k p →
      ∀ j ∈ t.staHash, P j (t.sta j) := by
    intro P hother hself j hj
    rw [honly.staHash] at hj
    by_cases hjk : j = k
    · rw [hjk, hsta]
      exact hself
    · rw [honly.sta j hjk]
      exact hother j hj hjk
  refine ⟨?_, ?_, ?_, ?_, ?_, ?_, ?_⟩
  · rw [honly.staHash]
    exact hs.hash_nodup
  · rw [honly.freeStaQueue]
    exact hs.free_nodup
  · rw [honly.staHash, honly.freeStaQueue]
    exact hs.free_not_mem
  · apply hrecord (P := fun _ p => Settled p)
    · exact fun j hj _ => hs.settled j hj
    · exact hsettled
  · apply hrecord (P := fun i q => ∀ j ∈ t.staHash, Holds q → Holds (t.sta j) →
      q.aid = (t.sta j).aid → i = j)
    · intro i hi hik
      apply hrecord (P := fun j q => Holds (s.sta i) → Holds q → (s.sta i).aid = q.aid → i = j)
      · exact fun j hj _ => hs.distinct i hi j hj
      · exact fun _ _ heq => absurd heq (hunused i hi hik)
    · apply hrecord (P := fun j q => Holds p → Holds q → p.aid = q.aid → k = j)
      · exact fun j hj hjk _ _ heq => absurd heq.symm (hunused j hj hjk)
      · exact fun _ _ _ => rfl
  · apply hrecord (P := fun _ q => Holds q → (t.timBitmap q.aid = true ↔ Owes q))
    · intro j hj _
      rw [honly.timBitmap]
      exact hs.announced j hj
    · intro _
      rw [honly.timBitmap]
      refine ⟨fun hset => ?_, fun howes => absurd howes (owes_of_nil hq)⟩
      obtain ⟨j, hj, hhj, haj⟩ := hs.owned _ hset
      have hjk : j ≠ k := by
        rintro rfl
        exact hnot hhj
      exact absurd (Fin.ext haj) (hunused j hj hjk)
  · intro id hid
    rw [honly.timBitmap] at hid
    obtain ⟨j, hj, hhj, haj⟩ := hs.owned id hid
    have hjk : j ≠ k := by
      rintro rfl
      exact hnot hhj
    refine ⟨j, ?_, ?_⟩
    · rw [honly.staHash]
      exact hj
    · rw [honly.sta j hjk]
      exact ⟨hhj, haj⟩

theorem assocSta_told {s : XmitPriv} (hs : Told s) {k : ℕ} (hk : k ∈ s.staHash)
    (aid : Fin (maxAid + 1)) {wmm : Option ℕ} (hok : JoinOk (s.sta k) wmm) :
    Told (assocSta s k aid wmm) := by
  have hp := hs.settled k hk
  obtain ⟨hkmac, hkq, -, -⟩ := joinBss_kept (s.sta k) aid wmm
  have honly := onlySta_setSta s k (joinBss (s.sta k) aid wmm)
  have hself := XmitPriv.setSta_self s k (joinBss (s.sta k) aid wmm)
  simp only [assocSta]
  split_ifs with hrefused
  · exact hs
  · obtain ⟨hmac, haid, hunused⟩ : (s.sta k).macAddr ≠ bcAddr ∧ aidFor (s.sta k) aid ≠ 0 ∧
        ∀ j ∈ s.staHash, j ≠ k → (s.sta j).aid ≠ aidFor (s.sta k) aid := by
      simpa only [not_or, not_exists, not_and] using hrefused
    have hsettled := joinBss_settled hp hmac haid hok
    by_cases hold : (s.sta k).aid = 0
    · have hnot : ¬ Holds (s.sta k) := not_or.mpr ⟨not_not_intro hold, hmac⟩
      exact hs.takeAid hk honly hself hnot hunused (hkq.trans (hp.unheld hnot)) hsettled
    · exact hs.of_onlySta hk honly hself hkmac (if_neg hold) hsettled
        (joinBss_owes hp hold hok.1)

/-! ## Runs -/

/-- A PS-Poll does not take the last announced frame before others, only a station
with an AID polls, wakes up or is freed while group frames are buffered, and an
association keeps the classes of what is buffered. -/
def TimOk (s : XmitPriv) : Event → Prop
  | .psPoll ta aid priority => ∀ k ∈ rtwGetStainfo s ta, psPollServed s k aid priority = true →
      HoldsBit s k ∧ PollKeepsTim (s.sta k)
  | .wakeUp k => WakeOk s k
  | .free k _ => HoldsBit s k
  | .assoc k _ wmm => JoinOk (s.sta k) wmm
  | _ => True

instance (s : XmitPriv) : ∀ e, Decidable (TimOk s e)
  | .psPoll _ _ _ => inferInstanceAs (Decidable (∀ _ ∈ _, _ → _))
  | .wakeUp _ => inferInstanceAs (Decidable (WakeOk _ _))
  | .free _ _ => inferInstanceAs (Decidable (HoldsBit _ _))
  | .assoc _ _ _ => inferInstanceAs (Decidable (JoinOk _ _))
  | .enqueue _ | .classify _ | .dequeue _ | .sleep _ | .trigger _ _ | .alloc _ | .updateBmcSta
  | .apFreeSta _ => inferInstanceAs (Decidable True)

theorem Event.apply_told {s : XmitPriv} (hs : Told s) {e : Event} (hok : TimOk s e) :
    Told (e.apply s) := by
  cases e with
  | enqueue f => exact xmitframeEnqueueForSleepingSta_told hs f
  | classify f => exact hs.of_sameSleep (rtwXmitClassifier_sameSleep s f)
  | dequeue inx =>
    simp only [Event.apply]
    cases hd : rtwDequeueXframe s inx with
    | none => exact hs
    | some r => exact hs.of_sameSleep (rtwDequeueXframe_sameSleep hd)
  | sleep k =>
    simp only [Event.apply, onSta]
    split_ifs with hk
    · cases rtwGetBcmcStainfo s with
      | none => exact hs
      | some bmc => exact stopStaXmit_told hs hk bmc
    · exact hs
  | wakeUp k =>
    simp only [Event.apply, onSta]
    split_ifs with hk
    · exact wakeupStaToXmit_told hs hk hok
    · exact hs
  | psPoll ta aid priority =>
    simp only [Event.apply]
    cases hget : rtwGetStainfo s ta with
    | none => exact hs
    | some k => exact psPoll_told hs (rtwGetStainfo_mem hget) aid priority (hok k hget)
  | trigger ta priority =>
    simp only [Event.apply]
    cases hget : rtwGetStainfo s ta with
    | none => exact hs
    | some k => exact processWmmpsData_told hs (rtwGetStainfo_mem hget) priority
  | alloc hwaddr =>
    simp only [Event.apply]
    split_ifs with hnone
    · exact rtwAllocStainfo_told hs hnone
    · exact hs
  | assoc k aid wmm =>
    simp only [Event.apply, onSta]
    split_ifs with hk
    · exact assocSta_told hs hk aid hok
    · exact hs
  | updateBmcSta =>
    simp only [Event.apply]
    cases hbmc : rtwGetBcmcStainfo s with
    | none => exact hs
    | some k =>
      have hk := rtwGetStainfo_mem hbmc
      refine hs.setFlags (p := (s.sta k).setLinked true) hk rfl rfl rfl rfl rfl ?_
      refine (hs.settled k hk).of_flags rfl rfl rfl rfl rfl rfl rfl rfl ?_
      exact fun _ => Or.inr (rtwGetBcmcStainfo_macAddr hbmc)
  | apFreeSta k =>
    simp only [Event.apply, onSta]
    split_ifs with hk
    · refine hs.setFlags (p := (s.sta k).setLinked false) hk rfl rfl rfl rfl rfl ?_
      refine (hs.settled k hk).of_flags rfl rfl rfl rfl rfl rfl rfl rfl ?_
      exact fun h => absurd h Bool.false_ne_true
    · exact hs
  | free k ownsAid =>
    simp only [Event.apply, onSta]
    split_ifs with hk
    · exact rtwFreeStainfo_told hs hk ownsAid hok
    · exact hs

theorem initXmitPriv_told (numSta : ℕ) : Told (initXmitPriv numSta) := by
  refine ⟨List.nodup_nil, List.nodup_range, ?_, ?_, ?_, ?_, ?_⟩
  · intro k _ hk
    cases hk
  · intro k hk
    cases hk
  · intro k hk
    cases hk
  · intro k hk
    cases hk
  · intro id hid
    exact absurd hid Bool.false_ne_true

/-- Any frame if all categories are delivery enabled, else one of the others. -/
def MustAnnounce (p : Sta) (f : XmitFrame) : Prop := AllDelivery p ∨ p.deliveryEnabled f = false

structure TimTruthful (s : XmitPriv) : Prop where
  unicast : ∀ k ∈ s.staHash, (s.sta k).linked = true → (s.sta k).macAddr ≠ bcAddr →
    (rtwTimMapIsSet s.timBitmap (s.sta k).aid = true ↔
      ∃ f ∈ (s.sta k).sleepQ, MustAnnounce (s.sta k) f)
  group : ∀ bmc, rtwGetBcmcStainfo s = some bmc →
    (rtwTimMapIsSet s.timBitmap 0 = true ↔ (s.sta bmc).sleepQ ≠ [])

theorem owes_iff {p : Sta} (h : Settled p) (haid : p.aid ≠ 0) :
    Owes p ↔ ∃ f ∈ p.sleepQ, MustAnnounce p f := by
  simp only [Owes, MustAnnounce]
  cases hlegacy : p.hasLegacyAc with
  | true =>
    have hall : ¬ AllDelivery p := by
      rw [← h.classes haid, hlegacy]
      exact Bool.true_eq_false.mp
    simp only [if_true, hall, false_or]
  | false =>
    have hall := (h.classes haid).mp hlegacy
    simp only [Bool.false_eq_true, if_false, hall, true_or, and_true]
    exact ⟨List.exists_mem_of_ne_nil _, fun ⟨f, hf⟩ => List.ne_nil_of_mem hf⟩

theorem Told.truthful {s : XmitPriv} (hs : Told s) : TimTruthful s := by
  constructor
  · intro k hk hlinked hmac
    have hp := hs.settled k hk
    have hholds := hp.linked hlinked
    rw [rtwTimMapIsSet_aid, hs.announced k hk hholds]
    exact owes_iff hp (hholds.resolve_right hmac)
  · intro bmc hbmc
    have hk := rtwGetStainfo_mem hbmc
    have hmac := rtwGetBcmcStainfo_macAddr hbmc
    obtain ⟨haid, -, hlegacy, -⟩ := (hs.settled bmc hk).broadcast hmac
    have hbit := hs.announced bmc hk (Or.inr hmac)
    rw [haid, Owes, hlegacy, if_neg Bool.false_ne_true] at hbit
    exact (iff_of_eq (congrArg (· = true) (rtwTimMapIsSet_aid s.timBitmap 0))).trans hbit

theorem run_truthful (numSta : ℕ) {es : List Event}
    (hes : Along Event.apply TimOk (initXmitPriv numSta) es) :
    TimTruthful (ApXmit.run (initXmitPriv numSta) es) := by
  have hs : Told (ApXmit.run (initXmitPriv numSta) es) :=
    run_spec TimOk Told (fun s e hs he => Event.apply_told hs he) (initXmitPriv_told numSta) hes
  exact hs.truthful

def mixedBuffered : List Event :=
  [.alloc bcAddr, .updateBmcSta, .alloc firstAddr, .assoc 1 1 (some 1), .sleep 1,
    .enqueue (frameTo 1 firstAddr 0), .enqueue (frameTo 1 firstAddr 6)]

theorem run_truthful_trigger : TimTruthful (ApXmit.run (initXmitPriv 32)
    (mixedBuffered ++ [.trigger firstAddr 6, .psPoll firstAddr 1 0, .wakeUp 1])) :=
  run_truthful 32 (by decide +kernel)

/-- The poll takes the best effort frame, and the bit stays for the voice frame. -/
theorem psPoll_leaves_tim :
    ¬ TimTruthful (ApXmit.run (initXmitPriv 32) (mixedBuffered ++ [.psPoll firstAddr 1 0])) := by
  intro h
  have hiff := h.unicast 1 (by decide +kernel) (by decide +kernel) (by decide +kernel)
  obtain ⟨f, hf, hann⟩ := hiff.mp (by decide +kernel)
  rcases hann with hall | hbe
  · exact absurd (hall .be) (by decide +kernel)
  · have hnone : ∀ g ∈ ((ApXmit.run (initXmitPriv 32)
        (mixedBuffered ++ [.psPoll firstAddr 1 0])).sta 1).sleepQ,
        ((ApXmit.run (initXmitPriv 32)
          (mixedBuffered ++ [.psPoll firstAddr 1 0])).sta 1).deliveryEnabled g = true := by
      decide +kernel
    exact Bool.false_ne_true (hbe.symm.trans (hnone f hf))

def secondAddr : MacAddr := macOf 0x02 0 0 0 0 0x02

/-- A station without an AID goes to sleep and wakes up while a group frame waits. -/
example : ¬ TimTruthful (ApXmit.run (initXmitPriv 32) (mixedBuffered ++
    ([.alloc secondAddr, .enqueue (frameTo 0 bcAddr 0), .sleep 2, .wakeUp 2] : List Event))) := by
  intro h
  exact absurd (h.group 0 (by decide +kernel)) (by decide +kernel)

end Rtl8189.TimBitmap
