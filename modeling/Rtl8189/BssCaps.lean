import Rtl8189.AsocLists
import Rtl8189.FlagCount

/-!
# The capability counters of the BSS

Each `num_sta_*` counter is the number of stations on `asoc_list` with the flag, as
long as no station with a flag is taken off the list by an Authentication frame.
-/
namespace Rtl8189.BssCaps

open ApBss AsocLists EventRun FlagCount MlmeProtect StaInfo

structure Counted (s : Ap) : Prop where
  listed : Listed s
  tallies : Tallies (s.priv.asocList ++ s.picked) s.capSet s.numSta
  idle : ∀ i ∈ s.priv.staHash, i ∉ s.priv.asocList ++ s.picked → ∀ c, s.capSet i c = false

/-- A station that leaves without `ap_free_sta` has no flag set. -/
def leavesUncounted (s : Ap) : Hazard → Prop
  | .reauth i => ∀ c, s.capSet i c = false
  | .free i => i ∉ s.priv.asocList
  | .refuse _ => True

variable {s : Ap}

/-! ## One flag -/

theorem setCap_tallies {l : List ℕ} (hl : l.Nodup) {i : ℕ} (hi : i ∈ l)
    (h : Tallies l s.capSet s.numSta) (c : Cap) :
    Tallies l (s.setCap i c).capSet (s.setCap i c).numSta := by
  simp only [Ap.setCap]
  split_ifs with hc
  · exact h
  · exact h.raise hl hi (eq_false_of_ne_true hc)

theorem clearCap_tallies {l : List ℕ} (hl : l.Nodup) {i : ℕ} (hi : i ∈ l)
    (h : Tallies l s.capSet s.numSta) (c : Cap) :
    Tallies l (s.clearCap i c).capSet (s.clearCap i c).numSta := by
  simp only [Ap.clearCap]
  split_ifs with hc
  · exact h.lower hl hi hc
  · exact h

theorem clearIntolerant_eq {l : List ℕ} {i : ℕ} (hi : i ∈ l)
    (h : Tallies l s.capSet s.numSta) :
    s.clearIntolerant i = s.clearCap i .ht40mhzIntolerant := by
  rw [Ap.clearIntolerant, if_neg]
  rintro ⟨hset, hnum⟩
  have hpos := h.pos hi hset
  omega

theorem setCap_capSet {i k : ℕ} (hk : k ≠ i) (c : Cap) : (s.setCap i c).capSet k = s.capSet k := by
  simp only [Ap.setCap]
  split_ifs
  · rfl
  · exact Function.update_of_ne hk _ _

theorem clearCap_capSet (i k : ℕ) (c d : Cap) :
    (s.clearCap i c).capSet k d = if k = i ∧ d = c then false else s.capSet k d := by
  simp only [Ap.clearCap]
  split_ifs with hset hk hk
  · exact (put_apply i k c d false).trans (if_pos hk)
  · exact (put_apply i k c d false).trans (if_neg hk)
  · rw [hk.1, hk.2]
    exact eq_false_of_ne_true hset
  · rfl

/-! ## Moves -/

theorem Counted.same {t : Ap} (hs : Counted s) (ht : Listed t)
    (hhash : ∀ i ∈ t.priv.staHash, i ∈ s.priv.staHash)
    (hlists : t.priv.asocList = s.priv.asocList ∧ t.picked = s.picked)
    (hcaps : t.capSet = s.capSet ∧ t.numSta = s.numSta) : Counted t where
  listed := ht
  tallies := by
    rw [hlists.1, hlists.2, hcaps.1, hcaps.2]
    exact hs.tallies
  idle i hi hout := by
    rw [hlists.1, hlists.2] at hout
    rw [hcaps.1]
    exact hs.idle i (hhash i hi) hout

theorem Counted.alloc (hb : Base s) (hs : Counted s) {a : MacAddr} {p : StaPriv} {i : ℕ}
    (hp : rtwAllocStainfo s.priv a = some (p, i)) (ht : Listed (s.allocated p i)) :
    Counted (s.allocated p i) := by
  obtain ⟨free, hfree, rfl⟩ := rtwAllocStainfo_eq hp
  have hi : i ∉ s.priv.staHash := hb.not_hashed hfree
  have hasoc : i ∉ s.priv.asocList := fun h => hi (hs.listed.asoc_hashed i h)
  have hpicked : i ∉ s.picked := fun h => hi (hs.listed.picked_hashed i h)
  refine ⟨ht, ?_, ?_⟩
  · simp only [Ap.allocated, List.erase_of_not_mem hasoc]
    apply hs.tallies.congr
    intro j hj
    apply Function.update_of_ne
    rintro rfl
    rcases List.mem_append.mp hj with hj | hj
    · exact hasoc hj
    · exact hpicked hj
  · intro j hj hout c
    simp only [Ap.allocated, List.erase_of_not_mem hasoc] at hj hout ⊢
    by_cases hji : j = i
    · rw [hji, Function.update_self]
    · rw [Function.update_of_ne hji]
      have hold : j ∈ s.priv.staHash := by simpa [hji] using hj
      exact hs.idle j hold hout c

theorem Counted.moved {t : Ap} (hs : Counted s) (ht : Listed t)
    (hhash : t.priv.staHash = s.priv.staHash)
    (hcaps : t.capSet = s.capSet ∧ t.numSta = s.numSta)
    (htallies : Tallies (t.priv.asocList ++ t.picked) s.capSet s.numSta)
    (hout : ∀ i, i ∈ s.priv.asocList ++ s.picked → i ∉ t.priv.asocList ++ t.picked →
      ∀ c, s.capSet i c = false) : Counted t where
  listed := ht
  tallies := by
    rw [hcaps.1, hcaps.2]
    exact htallies
  idle i hi hnot := by
    rw [hcaps.1]
    by_cases hold : i ∈ s.priv.asocList ++ s.picked
    · exact hout i hold hnot
    · exact hs.idle i (hhash ▸ hi) hold

theorem Counted.reauth (hs : Counted s) {i : ℕ} (hi : i ∈ s.priv.asocList)
    (hflag : ∀ c, s.capSet i c = false) (ht : Listed (s.delAsoc i)) : Counted (s.delAsoc i) := by
  apply hs.moved ht rfl ⟨rfl, rfl⟩
  · rw [← tallies_cons hflag]
    exact hs.tallies.perm ((List.perm_cons_erase hi).append_right s.picked).symm
  · intro j hj hout c
    by_cases hji : j = i
    · rw [hji]
      exact hflag c
    · refine absurd ?_ hout
      simp only [Ap.delAsoc, List.mem_append, List.mem_erase_of_ne hji]
      exact List.mem_append.mp hj

theorem Counted.addAsoc (hs : Counted s) {i : ℕ} (hi : i ∈ s.priv.staHash)
    (hasoc : i ∉ s.priv.asocList) (hpicked : s.picked = []) (ht : Listed (s.addAsoc i)) :
    Counted (s.addAsoc i) := by
  have hflag : ∀ c, s.capSet i c = false := by
    apply hs.idle i hi
    rw [hpicked, List.append_nil]
    exact hasoc
  apply hs.moved ht rfl ⟨rfl, rfl⟩
  · have hcons := (tallies_cons hflag).mpr hs.tallies
    exact hcons.perm ((List.perm_append_singleton i s.priv.asocList).append_right s.picked)
  · intro j hj hout
    refine absurd ?_ hout
    rcases List.mem_append.mp hj with hj | hj
    · exact List.mem_append_left _ (List.mem_append_left _ hj)
    · exact List.mem_append_right _ hj

theorem pick_perm {i : ℕ} (hi : i ∈ s.priv.asocList) :
    ((s.pick i).priv.asocList ++ (s.pick i).picked).Perm (s.priv.asocList ++ s.picked) := by
  have hlast := (List.perm_append_singleton i s.picked).append_left (s.priv.asocList.erase i)
  refine hlast.trans (List.perm_middle.trans ?_)
  exact ((List.perm_cons_erase hi).append_right s.picked).symm

theorem Counted.pick (hs : Counted s) {i : ℕ} (hi : i ∈ s.priv.asocList)
    (ht : Listed (s.pick i)) : Counted (s.pick i) := by
  apply hs.moved ht rfl ⟨rfl, rfl⟩
  · exact hs.tallies.perm (pick_perm hi)
  · intro j hj hout
    exact absurd ((pick_perm hi).mem_iff.mpr hj) hout

theorem members_nodup (hb : Base s) : (s.priv.asocList ++ s.picked).Nodup := by
  apply hb.nodup_asoc.append hb.nodup_picked
  intro i hasoc hpicked
  exact hb.picked_asoc i hpicked hasoc

theorem Counted.joinCaps (hb : Base s) (hs : Counted s) {i : ℕ} (hi : i ∈ s.priv.asocList)
    (ht : Bool) (psta : Sta) (hlisted : Listed (s.bssCapUpdateOnStaJoin ht i psta)) :
    Counted (s.bssCapUpdateOnStaJoin ht i psta) := by
  have hcaps := bssCapUpdateOnStaJoin_onlyCaps s ht i psta
  have hmem : i ∈ s.priv.asocList ++ s.picked := List.mem_append_left _ hi
  let l := s.priv.asocList ++ s.picked
  have hspec := bssCapUpdateOnStaJoin_spec (i := i)
    (P := fun t => Tallies l t.capSet t.numSta ∧ ∀ k, k ≠ i → t.capSet k = s.capSet k)
    (fun t c h => ⟨setCap_tallies (members_nodup hb) hmem h.1 c,
      fun k hk => (setCap_capSet hk c).trans (h.2 k hk)⟩)
    (fun t c h => ⟨clearCap_tallies (members_nodup hb) hmem h.1 c, fun k hk => by
      funext d
      rw [clearCap_capSet, if_neg fun h => hk h.1, h.2 k hk]⟩)
    (s := s) ⟨hs.tallies, fun _ _ => rfl⟩ ht psta
  refine ⟨hlisted, ?_, ?_⟩
  · rw [hcaps.priv, hcaps.picked]
    exact hspec.1
  · intro k hk hout
    rw [hcaps.priv, hcaps.picked] at hout
    rw [hcaps.priv] at hk
    have hki : k ≠ i := fun h => hout (h ▸ hmem)
    rw [hspec.2 k hki]
    exact hs.idle k hk hout

theorem bssCapUpdateOnStaLeave_spec {l : List ℕ} (hl : l.Nodup) {i : ℕ} (hi : i ∈ l)
    (h : Tallies l s.capSet s.numSta) :
    Tallies l (s.bssCapUpdateOnStaLeave i).capSet (s.bssCapUpdateOnStaLeave i).numSta ∧
      ∀ k c, (s.bssCapUpdateOnStaLeave i).capSet k c = if k = i then false else s.capSet k c := by
  have h₁ := clearCap_tallies hl hi h .noShortPreamble
  have h₂ := clearCap_tallies hl hi h₁ .nonErp
  have h₃ := clearCap_tallies hl hi h₂ .noShortSlotTime
  have h₄ := clearCap_tallies hl hi h₃ .htNoGf
  have h₅ := clearCap_tallies hl hi h₄ .noHt
  have h₆ := clearCap_tallies hl hi h₅ .ht20mhz
  simp only [Ap.bssCapUpdateOnStaLeave, clearIntolerant_eq hi h₆]
  refine ⟨clearCap_tallies hl hi h₆ .ht40mhzIntolerant, ?_⟩
  intro k c
  simp only [clearCap_capSet]
  by_cases hk : k = i
  · simp only [hk, true_and, if_true]
    cases c <;> simp
  · simp only [hk, false_and, if_false]

theorem unlinked_lists (s : Ap) (i : ℕ) : (s.unlinked i).priv.staHash = s.priv.staHash ∧
    (s.unlinked i).priv.asocList = s.priv.asocList ∧
      (s.unlinked i).picked = s.picked.erase i :=
  have hsame := unlinked_sameLists s i
  ⟨hsame.staHash, hsame.asocList, hsame.picked⟩

theorem Counted.unlinked (hb : Base s) (hs : Counted s) {i : ℕ} (hi : i ∈ s.picked) :
    Counted (s.unlinked i) := by
  obtain ⟨hhash, hasoc, hpicked⟩ := unlinked_lists s i
  have hmem : i ∈ s.priv.asocList ++ s.picked := List.mem_append_right _ hi
  obtain ⟨htallies, hcaps⟩ : Tallies _ (s.unlinked i).capSet (s.unlinked i).numSta ∧
      ∀ k c, (s.unlinked i).capSet k c = if k = i then false else s.capSet k c :=
    bssCapUpdateOnStaLeave_spec (s := s.setSta i (unlinkSta (s.priv.sta i))) (members_nodup hb)
      hmem hs.tallies
  have hflag : ∀ c, (s.unlinked i).capSet i c = false := fun c => by rw [hcaps, if_pos rfl]
  have hperm : (i :: (s.priv.asocList ++ s.picked.erase i)).Perm
      (s.priv.asocList ++ s.picked) :=
    List.perm_middle.symm.trans ((List.perm_cons_erase hi).symm.append_left s.priv.asocList)
  refine ⟨hs.listed.unlinked i, ?_, ?_⟩
  · rw [hasoc, hpicked, ← tallies_cons hflag]
    exact htallies.perm hperm
  · intro k hk hout c
    rw [hasoc, hpicked] at hout
    rw [hcaps]
    split_ifs with hki
    · rfl
    · apply hs.idle k (hhash ▸ hk)
      rw [← hperm.mem_iff, List.mem_cons]
      exact fun h => h.elim hki hout

theorem Counted.leave (hb : Base s) (hs : Counted s) (e : ApAdapter) (enqueue : Bool) {i : ℕ}
    (hi : i ∈ s.picked) : Counted (s.apFreeSta e enqueue i) := by
  have ht := hs.listed.leave hb e enqueue hi
  have hun := hs.unlinked hb hi
  rw [apFreeSta_eq] at ht ⊢
  split_ifs at ht ⊢
  · exact hun.same ht (fun _ h => h) ⟨rfl, rfl⟩ ⟨rfl, rfl⟩
  · rw [unlinked_stadel hb hs.listed e.ad hi] at ht ⊢
    exact hun.same ht (fun _ => List.mem_of_mem_erase) ⟨rfl, rfl⟩ ⟨rfl, rfl⟩

theorem Counted.move {t : Ap} (hb : Base s) (hs : Counted s) (h : Move leavesUncounted s t) :
    Counted t := by
  have ht : Listed t := by
    apply hs.listed.move hb (h.imp _)
    intro s hazard hsafe
    cases hazard with
    | free i => exact hsafe
    | _ => trivial
  cases h with
  | record hmac haid => exact hs.same ht (fun _ h => h) ⟨rfl, rfl⟩ ⟨rfl, rfl⟩
  | alloc hp hpicked => exact hs.alloc hb hp ht
  | free had hi hsafe hpicked =>
    exact hs.same ht (fun _ => List.mem_of_mem_erase) ⟨rfl, rfl⟩ ⟨rfl, rfl⟩
  | expireAuth had hi hpicked =>
    exact hs.same ht (fun _ => List.mem_of_mem_erase) ⟨rfl, rfl⟩ ⟨rfl, rfl⟩
  | refuse hmac haid hsafe => exact hs.same ht (fun _ h => h) ⟨rfl, rfl⟩ ⟨rfl, rfl⟩
  | aid hi hzero hmac haid hpos =>
    have hsame := rtwAidAlloc_sameLists hmac
    exact hs.same ht (fun _ h => hsame.staHash ▸ h) ⟨hsame.asocList, rfl⟩ ⟨rfl, rfl⟩
  | reauth hi hsafe => exact hs.reauth hi hsafe ht
  | joinAuth hi hauth hasoc hpicked => exact hs.same ht (fun _ h => h) ⟨rfl, rfl⟩ ⟨rfl, rfl⟩
  | leaveAuth hi => exact hs.same ht (fun _ h => h) ⟨rfl, rfl⟩ ⟨rfl, rfl⟩
  | joinAsoc hi hauth hasoc haid hget hpicked => exact hs.addAsoc hi hasoc hpicked ht
  | joinCaps supported psta hi hasoc => exact hs.joinCaps hb hasoc supported psta ht
  | pick hi => exact hs.pick hi ht
  | leave enqueue hi => exact hs.leave hb _ enqueue hi
  | dequeue => exact hs.same ht (fun _ h => h) ⟨rfl, rfl⟩ ⟨rfl, rfl⟩

/-! ## Runs -/

/-- The counters count the stations on `asoc_list`, and have not wrapped. -/
structure Exact (s : Ap) : Prop where
  count : ∀ c, s.numSta c = s.priv.asocList.countP (s.capSet · c)
  nonneg : ∀ c, 0 ≤ s.numSta c

/-- The event frees no station of `asoc_list`, and no Authentication frame takes a
station with a flag off the list. -/
def LeavesUncounted (s : Ap) (ev : ApAdapter × Event) : Prop :=
  FreesLeft s ev ∧ ∀ i, ev.2.Meets ev.1 s (.reauth i) → ∀ c, s.capSet i c = false

structure Kept (s : Ap) : Prop where
  base : Base s
  counted : Counted s
  picked : s.picked = []

theorem startAp_kept (maxNumSta : ℕ) : Kept (startAp maxNumSta) where
  base := startAp_base maxNumSta
  counted := ⟨(AsocLists.startAp_kept maxNumSta).listed, fun _ => rfl, fun _ _ _ _ => rfl⟩
  picked := rfl

theorem step_kept (s : Ap) (ev : ApAdapter × Event) (hs : Kept s) (hev : LeavesUncounted s ev) :
    Kept (step s ev) := by
  have hends : Ends leavesUncounted s (step s ev) := by
    apply ev.2.ends hs.base hs.picked
    · exact hev.2
    · exact fun _ _ => trivial
    · exact fun t i h hi => hev.1 i (h hi)
  refine ⟨hs.base.moves hends.moves, ?_, hends.picked⟩
  exact hends.moves.invariant (fun _ _ hb hc hm => hc.move hb hm) hs.base hs.counted

theorem Kept.exact {s : Ap} (hs : Kept s) : Exact s where
  count c := by
    rw [hs.counted.tallies c, hs.picked, List.append_nil]
  nonneg := hs.counted.tallies.nonneg

/-- The counters are exact as long as stations leave through `ap_free_sta`. -/
theorem run_exact (maxNumSta : ℕ) {es : List (ApAdapter × Event)}
    (hes : Along step LeavesUncounted (startAp maxNumSta) es) :
    Exact (run step (startAp maxNumSta) es) :=
  (run_spec LeavesUncounted Kept step_kept (startAp_kept maxNumSta) hes).exact

theorem leavesUncounted_of_empty {s : Ap} (h : s.priv.asocList = []) (ev : ApAdapter × Event) :
    LeavesUncounted s ev := by
  refine ⟨freesLeft_of_empty h ev, ?_⟩
  intro i hi
  cases hev : ev.2 with
  | mgnt f =>
    rw [hev] at hi
    have hmem := hi.2.2.2.2
    rw [h] at hmem
    cases hmem
  | _ =>
    rw [hev] at hi
    cases hi

/-- A station without short preamble comes, asks again, is deauthenticated, and its
deletion event is handled. -/
theorem run_exact_deauth :
    let es := [openAuth, assocReq, assocReq, deauth, .stadel].map (wpa2ApMode, ·)
    Exact (run step (startAp 32) es) := by
  intro es
  apply run_exact
  have hother : ∀ s : Ap, ∀ f : RecvFrame, RecvFrame.getFrameSubType f ≠ wifiAuth →
      LeavesUncounted s (wpa2ApMode, .mgnt f) :=
    fun s f hf => ⟨fun i h => hf h.1, fun i h => absurd h.1 hf⟩
  refine ⟨?_, ?_, ?_, ?_, ?_, trivial⟩
  · apply leavesUncounted_of_empty
    rfl
  · exact hother _ _ (by decide)
  · exact hother _ _ (by decide)
  · exact hother _ _ (by decide)
  · apply leavesUncounted_of_empty
    decide +kernel

/-- The station authenticates again: it is on no association list, and counted. When the
frame is out of sequence, the station is freed and the count stays. -/
theorem reauth_stays_counted :
    let s := run step (startAp 32) ([openAuth, assocReq].map (wpa2ApMode, ·))
    let t := step s (wpa2ApMode, openAuth)
    let u := step s (wpa2ApMode, .mgnt (mgntFrame 0xb0 [0, 0, 2, 0, 0, 0]))
    (t.priv.asocList = [] ∧ t.numSta .noShortPreamble = 1) ∧
      u.priv.staHash = [0] ∧ u.numSta .noShortPreamble = 1 := by decide +kernel

end Rtl8189.BssCaps
