import Rtl8189.ApMoves

/-!
# The association and authentication lists

The entries of both lists are stations of the table, and the counters are the
lengths, as long as `rtw_free_stainfo` is not called for a station that is on
`asoc_list`. The error exit of `OnAuth` and a deletion event that comes after a
new association do call it.
-/
namespace Rtl8189.AsocLists

open ApBss EventRun MlmeProtect StaInfo

open RecvFrame (addr2 getFrameSubType)

structure Listed (s : Ap) : Prop where
  asoc_hashed : ∀ i ∈ s.priv.asocList, i ∈ s.priv.staHash
  picked_hashed : ∀ i ∈ s.picked, i ∈ s.priv.staHash
  auth_asoc : ∀ i ∈ s.priv.authList, i ∉ s.priv.asocList
  auth_picked : ∀ i ∈ s.priv.authList, i ∉ s.picked
  asoc_cnt : s.priv.asocListCnt = s.priv.asocList.length
  auth_cnt : s.priv.authListCnt = s.priv.authList.length

def leftAsoc (s : Ap) : Hazard → Prop
  | .free i => i ∉ s.priv.asocList
  | _ => True

variable {s : Ap}

theorem Listed.same {t : Ap} (hs : Listed s) (h : SameLists s t)
    (hasoc : t.priv.asocListCnt = s.priv.asocListCnt)
    (hauth : t.priv.authListCnt = s.priv.authListCnt) : Listed t where
  asoc_hashed := h.asocList ▸ h.staHash ▸ hs.asoc_hashed
  picked_hashed := h.picked ▸ h.staHash ▸ hs.picked_hashed
  auth_asoc := h.authList ▸ h.asocList ▸ hs.auth_asoc
  auth_picked := h.authList ▸ h.picked ▸ hs.auth_picked
  asoc_cnt := by rw [hasoc, h.asocList, hs.asoc_cnt]
  auth_cnt := by rw [hauth, h.authList, hs.auth_cnt]

theorem Listed.alloc (hb : Base s) (hs : Listed s) {a : MacAddr} {p : StaPriv} {i : ℕ}
    (hp : rtwAllocStainfo s.priv a = some (p, i)) : Listed (s.allocated p i) := by
  obtain ⟨free, hfree, rfl⟩ := rtwAllocStainfo_eq hp
  have hi : i ∉ s.priv.staHash := hb.not_hashed hfree
  have hasoc : s.priv.asocList.erase i = s.priv.asocList :=
    List.erase_of_not_mem fun h => hi (hs.asoc_hashed i h)
  have hauth : s.priv.authList.erase i = s.priv.authList :=
    List.erase_of_not_mem fun h => hi (hb.auth_hashed i h)
  refine ⟨?_, ?_, ?_, ?_, ?_, ?_⟩
  · intro j hj
    exact List.mem_append_left _ (hs.asoc_hashed j (List.mem_of_mem_erase hj))
  · intro j hj
    exact List.mem_append_left _ (hs.picked_hashed j hj)
  · simp only [Ap.allocated, hasoc, hauth]
    exact hs.auth_asoc
  · simp only [Ap.allocated, hauth]
    exact hs.auth_picked
  · simp only [Ap.allocated, hasoc]
    exact hs.asoc_cnt
  · simp only [Ap.allocated, hauth]
    exact hs.auth_cnt

theorem Listed.free (hs : Listed s) (ad : Adapter) {i : ℕ} (hasoc : i ∉ s.priv.asocList)
    (hpicked : i ∉ s.picked) : Listed (s.freeSta ad i) where
  asoc_hashed j hj := by
    have hji : j ≠ i := fun h => hasoc (h ▸ hj)
    exact (List.mem_erase_of_ne hji).mpr (hs.asoc_hashed j hj)
  picked_hashed j hj := by
    have hji : j ≠ i := fun h => hpicked (h ▸ hj)
    exact (List.mem_erase_of_ne hji).mpr (hs.picked_hashed j hj)
  auth_asoc j hj := hs.auth_asoc j (List.mem_of_mem_erase hj)
  auth_picked j hj := hs.auth_picked j (List.mem_of_mem_erase hj)
  asoc_cnt := hs.asoc_cnt
  auth_cnt := by
    simp only [Ap.freeSta, rtwFreeStainfo, hs.auth_cnt]
    by_cases hi : i ∈ s.priv.authList
    · rw [if_pos hi, List.length_erase_of_mem hi]
    · rw [if_neg hi, List.erase_of_not_mem hi]

theorem Listed.delAuth (hs : Listed s) {i : ℕ} (hi : i ∈ s.priv.authList) :
    Listed (s.delAuth i) where
  asoc_hashed := hs.asoc_hashed
  picked_hashed := hs.picked_hashed
  auth_asoc j hj := hs.auth_asoc j (List.mem_of_mem_erase hj)
  auth_picked j hj := hs.auth_picked j (List.mem_of_mem_erase hj)
  asoc_cnt := hs.asoc_cnt
  auth_cnt := by
    simp only [Ap.delAuth, hs.auth_cnt]
    rw [List.length_erase_of_mem hi]

theorem Listed.delAsoc (hs : Listed s) {i : ℕ} (hi : i ∈ s.priv.asocList) :
    Listed (s.delAsoc i) where
  asoc_hashed j hj := hs.asoc_hashed j (List.mem_of_mem_erase hj)
  picked_hashed := hs.picked_hashed
  auth_asoc j hj h := hs.auth_asoc j hj (List.mem_of_mem_erase h)
  auth_picked := hs.auth_picked
  asoc_cnt := by
    simp only [Ap.delAsoc, hs.asoc_cnt]
    rw [List.length_erase_of_mem hi]
  auth_cnt := hs.auth_cnt

theorem Listed.pick (hs : Listed s) {i : ℕ} (hi : i ∈ s.priv.asocList) : Listed (s.pick i) where
  asoc_hashed := (hs.delAsoc hi).asoc_hashed
  picked_hashed j hj := by
    rcases List.mem_append.mp hj with hj | hj
    · exact hs.picked_hashed j hj
    · rw [List.mem_singleton.mp hj]
      exact hs.asoc_hashed i hi
  auth_asoc := (hs.delAsoc hi).auth_asoc
  auth_picked j hj h := by
    rcases List.mem_append.mp h with h | h
    · exact hs.auth_picked j hj h
    · rw [List.mem_singleton.mp h] at hj
      exact hs.auth_asoc i hj hi
  asoc_cnt := (hs.delAsoc hi).asoc_cnt
  auth_cnt := hs.auth_cnt

theorem Listed.addAuth (hs : Listed s) {i : ℕ} (hasoc : i ∉ s.priv.asocList)
    (hpicked : s.picked = []) : Listed (s.addAuth i) where
  asoc_hashed := hs.asoc_hashed
  picked_hashed := hs.picked_hashed
  auth_asoc j hj := by
    rcases List.mem_append.mp hj with hj | hj
    · exact hs.auth_asoc j hj
    · rw [List.mem_singleton.mp hj]
      exact hasoc
  auth_picked j _ := by simp [Ap.addAuth, hpicked]
  asoc_cnt := hs.asoc_cnt
  auth_cnt := by simp [Ap.addAuth, hs.auth_cnt]

theorem Listed.addAsoc (hs : Listed s) {i : ℕ} (hi : i ∈ s.priv.staHash)
    (hauth : i ∉ s.priv.authList) : Listed (s.addAsoc i) where
  asoc_hashed j hj := by
    rcases List.mem_append.mp hj with hj | hj
    · exact hs.asoc_hashed j hj
    · rw [List.mem_singleton.mp hj]
      exact hi
  picked_hashed := hs.picked_hashed
  auth_asoc j hj h := by
    rcases List.mem_append.mp h with h | h
    · exact hs.auth_asoc j hj h
    · rw [List.mem_singleton.mp h] at hj
      exact hauth hj
  auth_picked := hs.auth_picked
  asoc_cnt := by simp [Ap.addAsoc, hs.asoc_cnt]
  auth_cnt := hs.auth_cnt

theorem Listed.unlinked (hs : Listed s) (i : ℕ) : Listed (s.unlinked i) := by
  have hdrop : Listed { s with picked := s.picked.erase i } :=
    ⟨hs.asoc_hashed, fun j hj => hs.picked_hashed j (List.mem_of_mem_erase hj), hs.auth_asoc,
      fun j hj h => hs.auth_picked j hj (List.mem_of_mem_erase h), hs.asoc_cnt, hs.auth_cnt⟩
  apply hdrop.same (unlinked_sameLists s i)
  · rw [unlinked_priv]
    rfl
  · rw [unlinked_priv]
    rfl

theorem unlinked_stadel (hb : Base s) (hs : Listed s) (ad : Adapter) {i : ℕ}
    (hi : i ∈ s.picked) :
    (s.unlinked i).rtwStadelEventCallback ad (s.priv.sta i).macAddr =
      (s.unlinked i).freeSta ad i := by
  have hsame := unlinked_sameLists s i
  have hget : rtwGetStainfo (s.unlinked i).priv (s.priv.sta i).macAddr = some i := by
    rw [rtwGetStainfo_congr hsame.staHash hsame.macAddr]
    exact hb.found i (.inr hi) (hs.picked_hashed i hi)
  simp only [Ap.rtwStadelEventCallback, hget]

theorem Listed.leave (hb : Base s) (hs : Listed s) (e : ApAdapter) (enqueue : Bool) {i : ℕ}
    (hi : i ∈ s.picked) : Listed (s.apFreeSta e enqueue i) := by
  rw [apFreeSta_eq]
  split_ifs
  · exact (hs.unlinked i).same ⟨rfl, rfl, rfl, rfl, rfl, fun _ => rfl⟩ rfl rfl
  · rw [unlinked_stadel hb hs e.ad hi]
    apply (hs.unlinked i).free
    · rw [(unlinked_sameLists s i).asocList]
      exact hb.picked_asoc i hi
    · rw [unlinked_picked]
      exact hb.nodup_picked.not_mem_erase

theorem Listed.move {t : Ap} (hb : Base s) (hs : Listed s) (h : Move leftAsoc s t) :
    Listed t := by
  cases h with
  | record hmac haid => exact hs.same (setSta_sameLists hmac) rfl rfl
  | alloc hp hpicked => exact hs.alloc hb hp
  | free had hi hsafe hpicked =>
    apply hs.free _ hsafe
    simp [hpicked]
  | expireAuth had hi hpicked =>
    apply (hs.delAuth hi).free
    · exact hs.auth_asoc _ hi
    · simp [Ap.delAuth, hpicked]
  | refuse hmac haid hsafe => exact hs.same (setSta_sameLists hmac) rfl rfl
  | aid hi hzero hmac haid hpos =>
    apply hs.same (rtwAidAlloc_sameLists hmac)
    · simp only [rtwAidAlloc]
      split_ifs <;> rfl
    · simp only [rtwAidAlloc]
      split_ifs <;> rfl
  | reauth hi hsafe => exact hs.delAsoc hi
  | joinAuth hi hauth hasoc hpicked => exact hs.addAuth hasoc hpicked
  | leaveAuth hi => exact hs.delAuth hi
  | joinAsoc hi hauth hasoc haid hget hpicked => exact hs.addAsoc hi hauth
  | @joinCaps i ht psta hi hasoc =>
    have hcaps := bssCapUpdateOnStaJoin_onlyCaps s ht i psta
    apply hs.same hcaps.sameLists
    · rw [hcaps.priv]
    · rw [hcaps.priv]
  | pick hi => exact hs.pick hi
  | leave enqueue hi => exact hs.leave hb _ enqueue hi
  | dequeue => exact hs.same ⟨rfl, rfl, rfl, rfl, rfl, fun _ => rfl⟩ rfl rfl

/-! ## Runs -/

/-- The entries of the lists are allocated, each is there once, and the counters
are the lengths. -/
structure Live (p : StaPriv) : Prop where
  asoc_hashed : ∀ i ∈ p.asocList, i ∈ p.staHash ∧ i ∉ p.freeStaQueue
  auth_hashed : ∀ i ∈ p.authList, i ∈ p.staHash ∧ i ∉ p.freeStaQueue
  asoc_nodup : p.asocList.Nodup
  auth_nodup : p.authList.Nodup
  asoc_cnt : p.asocListCnt = p.asocList.length
  auth_cnt : p.authListCnt = p.authList.length

/-- The event frees no station of `asoc_list`: no failing Authentication frame of a
protected station there, no deletion event for a station there. -/
def FreesLeft (s : Ap) (ev : ApAdapter × Event) : Prop := ∀ i, ¬ ev.2.Meets ev.1 s (.free i)

structure Kept (s : Ap) : Prop where
  base : Base s
  listed : Listed s
  picked : s.picked = []

theorem startAp_kept (maxNumSta : ℕ) : Kept (startAp maxNumSta) where
  base := startAp_base maxNumSta
  listed := by
    refine ⟨?_, ?_, ?_, ?_, rfl, rfl⟩
    · intro i hi
      cases hi
    · intro i hi
      cases hi
    · intro i hi
      cases hi
    · intro i hi
      cases hi
  picked := rfl

theorem step_ends {s : Ap} {ev : ApAdapter × Event} (hb : Base s) (hpicked : s.picked = [])
    (hev : FreesLeft s ev) : Ends leftAsoc s (step s ev) := by
  apply ev.2.ends hb hpicked
  · exact fun _ _ => trivial
  · exact fun _ _ => trivial
  · intro t i h hi
    exact hev i (h hi)

theorem step_kept (s : Ap) (ev : ApAdapter × Event) (hs : Kept s) (hev : FreesLeft s ev) :
    Kept (step s ev) := by
  have hends := step_ends hs.base hs.picked hev
  refine ⟨hs.base.moves hends.moves, ?_, hends.picked⟩
  exact hends.moves.invariant (fun _ _ hb hl hm => hl.move hb hm) hs.base hs.listed

theorem Kept.live {s : Ap} (hs : Kept s) : Live s.priv where
  asoc_hashed i hi :=
    have hhash := hs.listed.asoc_hashed i hi
    ⟨hhash, hs.base.hash_free i hhash⟩
  auth_hashed i hi :=
    have hhash := hs.base.auth_hashed i hi
    ⟨hhash, hs.base.hash_free i hhash⟩
  asoc_nodup := hs.base.nodup_asoc
  auth_nodup := hs.base.nodup_auth
  asoc_cnt := hs.listed.asoc_cnt
  auth_cnt := hs.listed.auth_cnt

/-- The lists hold live stations as long as no station of `asoc_list` is freed. -/
theorem run_live (maxNumSta : ℕ) {es : List (ApAdapter × Event)}
    (hes : Along step FreesLeft (startAp maxNumSta) es) :
    Live (run step (startAp maxNumSta) es).priv :=
  (run_spec FreesLeft Kept step_kept (startAp_kept maxNumSta) hes).live

theorem meets_free_asoc {e : ApAdapter} {s : Ap} {ev : Event} {i : ℕ}
    (h : ev.Meets e s (.free i)) : i ∈ s.priv.asocList := by
  cases ev with
  | mgnt f => exact h.2.2.2.2.2.1
  | stadel =>
    obtain ⟨_, _, _, _, hi⟩ := h
    exact hi
  | _ => cases h

theorem freesLeft_of_empty {s : Ap} (h : s.priv.asocList = []) (ev : ApAdapter × Event) :
    FreesLeft s ev := by
  intro i hi
  have hmem := meets_free_asoc hi
  rw [h] at hmem
  cases hmem

/-- A station comes, is deauthenticated, and its deletion event is handled. -/
theorem run_live_deauth :
    let es := [openAuth, assocReq, deauth, .stadel].map (wpa2ApMode, ·)
    Live (run step (startAp 32) es).priv := by
  intro es
  apply run_live
  refine ⟨?_, ?_, ?_, ?_, trivial⟩
  · apply freesLeft_of_empty
    rfl
  · apply freesLeft_of_empty
    decide +kernel
  · rintro i ⟨hauth, -⟩
    revert hauth
    decide
  · apply freesLeft_of_empty
    decide +kernel

def mfpApMode : ApAdapter where
  ad := { wpa2Ap with
    rtwParseWpa2Ie := fun _ =>
      some { groupCipher := 16, pairwiseCipher := 16, mfpOpt := .optional } }
  myBssid := Vector.replicate 6 6
  pmlmeinfoState := rfl
  staInfoUpdate_macAddr _ := rfl
  staInfoUpdate_aid _ := rfl

/-- The deletion event of the first association is handled after the second one; or
an Authentication frame of a protected station is out of sequence. -/
theorem freed_on_asocList :
    let es := [openAuth, assocReq, deauth, openAuth, assocReq, .stadel].map
      (wpa2ApMode, ·)
    let es' := [openAuth, .mgnt (mgntFrame 0x00 [0, 0, 0, 0, 0, 1, 0x61, 1, 1, 0x82, 48, 0]),
      .setKey #v[2, 0, 0, 0, 0, 1], .mgnt (mgntFrame 0xb0 [0, 0, 2, 0, 0, 0])].map (mfpApMode, ·)
    (1 ∈ (run step (startAp 32) es).priv.asocList ∧
      1 ∉ (run step (startAp 32) es).priv.staHash) ∧
      1 ∈ (run step (startAp 32) es').priv.asocList ∧
        1 ∉ (run step (startAp 32) es').priv.staHash := by decide +kernel

end Rtl8189.AsocLists
